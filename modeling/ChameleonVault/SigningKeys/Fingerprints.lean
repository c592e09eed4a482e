import ChameleonVault.SigningKeys.Drafts
import ChameleonVault.SigningKeys.Published

/-! Whether a certificate names the key that signed it, which turns on what happens between the
lookup for the fingerprint and the lookup for the signature. -/

namespace ChameleonVault.SigningKeys

open Concurrency Interleaving Discipline

variable {keyPath : String} {publicKey : String → String} {text : ClaimsText} {s s' : State} {t : ℕ}
  {v w pem source : String} {q : Draft} {log : (production keyPath publicKey text).Log}
  {a : (production keyPath publicKey text).Action} {e : (production keyPath publicKey text).Entry}

section Moments

/-- The caller that finds a version in the signer's cache. -/
def finds : (production keyPath publicKey text).Entry → Option ℕ
  | .act ⟨t, .memory (.currentVersion .signer), _, .ok (some _)⟩ => some t
  | _ => none

/-- The caller whose listing ends. -/
def lists : (production keyPath publicKey text).Entry → Option ℕ
  | .act ⟨t, .kms (.endList _), _, .ok _⟩ => some t
  | _ => none

/-- The caller that takes up a fingerprint. -/
def drafts : (production keyPath publicKey text).Entry → Option ℕ
  | .act ⟨t, .memory (.fingerprint _), _, .ok _⟩ => some t
  | _ => none

/-- What happened since the listing began that the version a caller looked up last is from. -/
def sinceLookup (t : ℕ) (log : (production keyPath publicKey text).Log) : (production keyPath publicKey text).Log :=
  window (fun e log => if finds e = some t then some (sinceCachedVersion log)
    else if lists e = some t then some (sinceListing t log) else none) log

/-- What happened since the listing began that the version of the fingerprint is from. -/
def sinceDraft (t : ℕ) (log : (production keyPath publicKey text).Log) : (production keyPath publicKey text).Log :=
  window (fun e log => if drafts e = some t then some (sinceLookup t log) else none) log

def holds (t : ℕ) (e : (production keyPath publicKey text).Entry) (_ : (production keyPath publicKey text).Log) : Bool :=
  decide (finds e = some t ∨ signerStorer e = some t)

def disturbs (t : ℕ) (e : (production keyPath publicKey text).Entry) (_ : (production keyPath publicKey text).Log) : Bool :=
  (invalidates e).isSome || (signerStorer e).any fun u => u != t

/-- The signer's cache was neither dropped nor written by another since the caller last found a
version in it or stored one. -/
def isUntouched (t : ℕ) (log : (production keyPath publicKey text).Log) : Bool := !since (holds t) (disturbs t) log

/-- Once it has its fingerprint, a production finds the cache as it last found or left it, or no
version has become enabled since the listings began that its two versions are from. -/
def looksUpInTime : (production keyPath publicKey text).Guard := fun _ log e =>
  (∀ t ∈ finds e, ((drafting publicKey text).known t log).source.isSome = true → isUntouched t log = true ∨
      enabled keyPath (sinceDraft t log) = [] ∧ enabled keyPath (sinceCachedVersion log) = []) ∧
    ∀ t ∈ lists e, ((drafting publicKey text).known t log).source.isSome = true →
      enabled keyPath (sinceDraft t log) = [] ∧ enabled keyPath (sinceListing t log) = []

instance : ∀ s log e, Decidable (@looksUpInTime keyPath publicKey text s log e) :=
  fun _ _ _ => inferInstanceAs (Decidable (_ ∧ _))

lemma sinceLookup_found (h : finds e = some t) : sinceLookup t (e :: log) = e :: sinceCachedVersion log :=
  window_opened (if_pos h)

lemma sinceLookup_listed (h : lists e = some t) (hf : finds e ≠ some t) : sinceLookup t (e :: log) = e :: sinceListing t log :=
  window_opened ((if_neg hf).trans (if_pos h))

lemma sinceLookup_kept (hf : finds e ≠ some t) (hl : lists e ≠ some t) : sinceLookup t (e :: log) = e :: sinceLookup t log :=
  window_kept ((if_neg hf).trans (if_neg hl))

lemma sinceDraft_now (h : drafts e = some t) : sinceDraft t (e :: log) = e :: sinceLookup t log :=
  window_opened (if_pos h)

lemma sinceDraft_kept (h : drafts e ≠ some t) : sinceDraft t (e :: log) = e :: sinceDraft t log :=
  window_kept (if_neg h)

lemma finds_tid (h : finds (.act a) = some t) : a.tid = t := by
  simp only [finds] at h
  split at h
  · rename_i heq
    cases heq
    exact Option.some.inj h
  · cases h

lemma lists_tid (h : lists (.act a) = some t) : a.tid = t := by
  simp only [lists] at h
  split at h
  · rename_i heq
    cases heq
    exact Option.some.inj h
  · cases h

lemma drafts_tid (h : drafts (.act a) = some t) : a.tid = t := by
  simp only [drafts] at h
  split at h
  · rename_i heq
    cases heq
    exact Option.some.inj h
  · cases h

lemma not_beginsList (h : lists (.act a) = some t) : beginsList t (.act a) = false := by
  rw [Bool.eq_false_iff]
  intro hb
  obtain ⟨choice, names, rfl⟩ := eq_of_beginsList hb
  cases h

lemma finds_of_reads (h : a.op = .memory (.fingerprint v)) : finds (.act a) = none := by
  obtain ⟨t, op, choice, r⟩ := a
  obtain rfl := h
  rfl

lemma finds_of_stores (h : a.op = .memory (.setCurrentVersion .signer v)) : finds (.act a) = none := by
  obtain ⟨t, op, choice, r⟩ := a
  obtain rfl := h
  rfl

lemma lists_of_reads (h : a.op = .memory (.fingerprint v)) : lists (.act a) = none := by
  obtain ⟨t, op, choice, r⟩ := a
  obtain rfl := h
  rfl

lemma untouched_of_cons (hh : holds t e log = false) (h : isUntouched t (e :: log) = true) : isUntouched t log = true := by
  rw [isUntouched, Bool.not_eq_true'] at h ⊢
  exact (not_since_cons hh h).2

end Moments

section Steps

variable {op : SigningOp} {choice : Outcome} {r : Except String op.Res} {k : Knowledge}

lemma exec_of_served (h : op.served keyPath publicKey choice s = some (r, s')) :
    op.exec keyPath choice s = some (r, s') := by
  simp only [SigningOp.served] at h
  split at h
  · simp only [Option.ite_none_right_eq_some] at h
    exact h.2
  · exact h

lemma fingerprints_exec (he : op.exec keyPath choice s = some (r, s')) (hc : s'.caches.fingerprints v = some pem) :
    s.caches.fingerprints v = some pem ∨ op = .memory (.setFingerprint v pem) := by
  by_cases hop : ∃ m, op = .memory m
  · obtain ⟨m, rfl⟩ := hop
    obtain ⟨-, rfl⟩ := exec_memory he
    cases m with
    | setFingerprint u pem' =>
      by_cases hv : v = u
      · subst hv
        have hpem : some pem' = some pem := by simpa [MemoryOp.run] using hc
        exact .inr (by rw [Option.some.inj hpem])
      · exact .inl (by simpa [MemoryOp.run, Function.update_of_ne hv] using hc)
    | _ => exact .inl hc
  · rw [caches_of_exec he fun m hm => hop ⟨m, hm⟩] at hc
    exact .inl hc

lemma source_next (h : ((drafting publicKey text).next q a.op a.reply).source = some source) :
    (q.source = some source ∧ drafts (.act a) ≠ some a.tid) ∨
      (a.op = .memory (.fingerprint source) ∧ drafts (.act a) = some a.tid) := by
  obtain ⟨t, op, choice, r⟩ := a
  have hne : (none : Option ℕ) ≠ some t := (Option.some_ne_none t).symm
  cases op with
  | memory op =>
    cases op with
    | currentVersion holder => cases holder <;> cases r <;> exact .inl ⟨h, hne⟩
    | setCurrentVersion holder value => cases holder <;> exact .inl ⟨h, hne⟩
    | fingerprint u =>
      cases r with
      | error e => exact .inl ⟨h, hne⟩
      | ok cached =>
        obtain rfl := Option.some.inj h
        exact .inr ⟨rfl, rfl⟩
    | _ => exact .inl ⟨h, hne⟩
  | kms op =>
    cases op with
    | endList seen | getPublicKey u => cases r <;> exact .inl ⟨h, hne⟩
    | _ => exact .inl ⟨h, hne⟩
  | _ => exact .inl ⟨h, hne⟩

/-- The version in hand is kept, found in the cache, or the newest of a listing. -/
lemma version_next (he : a.op.exec keyPath a.choice s = some (a.reply, s'))
    (h : ((drafting publicKey text).next q a.op a.reply).version = some v) :
    (q.version = some v ∧ finds (.act a) ≠ some a.tid ∧ lists (.act a) ≠ some a.tid) ∨
      (finds (.act a) = some a.tid ∧ ∃ c, s.caches.currentVersion .signer = some c ∧ c.value = v) ∨
      (lists (.act a) = some a.tid ∧ finds (.act a) ≠ some a.tid ∧
        ∃ names, (knowledge.next k a.op a.reply).listed = some names ∧ newest names = some v) := by
  obtain ⟨t, op, choice, r⟩ := a
  have hne : (none : Option ℕ) ≠ some t := (Option.some_ne_none t).symm
  cases op with
  | memory op =>
    obtain ⟨rfl, -⟩ := exec_memory he
    cases op with
    | currentVersion holder =>
      cases holder with
      | service => exact .inl ⟨h, hne, hne⟩
      | signer =>
        obtain ⟨c, hc, -, rfl⟩ := live_eq_some_iff.mp h
        refine .inr (.inl ⟨?_, c, hc, rfl⟩)
        simp only [finds, MemoryOp.run]
        rw [show live s.clock (s.caches.currentVersion .signer) = some c.value from h]
    | setCurrentVersion holder value => cases holder <;> exact .inl ⟨h, hne, hne⟩
    | _ => exact .inl ⟨h, hne, hne⟩
  | kms op =>
    cases op with
    | endList seen =>
      cases r with
      | error e => exact .inl ⟨h, hne, hne⟩
      | ok names => exact .inr (.inr ⟨rfl, hne, names, rfl, h⟩)
    | getPublicKey u => cases r <;> exact .inl ⟨h, hne, hne⟩
    | _ => exact .inl ⟨h, hne, hne⟩
  | _ => exact .inl ⟨h, hne, hne⟩

lemma held_next (he : a.op.exec keyPath a.choice s = some (a.reply, s'))
    (h : ((drafting publicKey text).next q a.op a.reply).held = some v) :
    (q.held = some v ∧ finds (.act a) ≠ some a.tid ∧ signerStorer (.act a) = none) ∨
      (finds (.act a) = some a.tid ∧ ∃ c, s.caches.currentVersion .signer = some c ∧ c.value = v) ∨
      a.op = .memory (.setCurrentVersion .signer v) := by
  obtain ⟨t, op, choice, r⟩ := a
  have hne : (none : Option ℕ) ≠ some t := (Option.some_ne_none t).symm
  cases op with
  | memory op =>
    obtain ⟨rfl, -⟩ := exec_memory he
    cases op with
    | currentVersion holder =>
      cases holder with
      | service => exact .inl ⟨h, hne, rfl⟩
      | signer =>
        cases hl : live s.clock (s.caches.currentVersion .signer) with
        | none =>
          refine .inl ⟨?_, ?_, rfl⟩
          · simpa only [drafting, MemoryOp.run, hl, Option.none_or] using h
          · simp [finds, MemoryOp.run, hl]
        | some value =>
          obtain ⟨c, hc, -, rfl⟩ := live_eq_some_iff.mp hl
          refine .inr (.inl ⟨?_, c, hc, ?_⟩)
          · simp only [finds, MemoryOp.run, hl]
          · simpa [drafting, MemoryOp.run, hl] using h
    | setCurrentVersion holder value =>
      cases holder with
      | service => exact .inl ⟨h, hne, rfl⟩
      | signer =>
        obtain rfl := Option.some.inj h
        exact .inr (.inr rfl)
    | _ => exact .inl ⟨h, hne, rfl⟩
  | kms op =>
    cases op with
    | endList seen | getPublicKey u => cases r <;> exact .inl ⟨h, hne, rfl⟩
    | _ => exact .inl ⟨h, hne, rfl⟩
  | _ => exact .inl ⟨h, hne, rfl⟩

lemma held_isSome (h : q.held = some v) (op : SigningOp) (r : Except String op.Res) :
    ((drafting publicKey text).next q op r).held.isSome = true := by
  cases op with
  | memory op =>
    cases op with
    | currentVersion holder =>
      cases holder with
      | service => cases r <;> simp [drafting, h]
      | signer =>
        cases r with
        | error e => simp [drafting, h]
        | ok value => cases value <;> simp [drafting, h]
    | setCurrentVersion holder value => cases holder <;> simp [drafting, h]
    | fingerprint u => cases r <;> simp [drafting, h]
    | _ => simp [drafting, h]
  | kms op =>
    cases op with
    | endList seen | getPublicKey u => cases r <;> simp [drafting, h]
    | _ => simp [drafting, h]
  | _ => simp [drafting, h]

lemma held_of_reads (h : a.op = .memory (.fingerprint v)) :
    ((drafting publicKey text).next q a.op a.reply).held = q.held := by
  obtain ⟨t, op, choice, r⟩ := a
  obtain rfl := h
  cases r <;> rfl

lemma fingerprint_next (he : a.op.exec keyPath a.choice s = some (a.reply, s'))
    (hp : (drafting publicKey text).possible a.op a.reply) (hallowed : (drafting publicKey text).allowed q a.op)
    (hs : ((drafting publicKey text).next q a.op a.reply).source = some source)
    (hf : ((drafting publicKey text).next q a.op a.reply).fingerprint = some pem) :
    q.source = some source ∧ q.fingerprint = some pem ∨ s.caches.fingerprints source = some pem ∨ pem = publicKey source := by
  obtain ⟨t, op, choice, r⟩ := a
  cases op with
  | memory op =>
    obtain ⟨rfl, -⟩ := exec_memory he
    cases op with
    | currentVersion holder => cases holder <;> exact .inl ⟨hs, hf⟩
    | setCurrentVersion holder value => cases holder <;> exact .inl ⟨hs, hf⟩
    | fingerprint u =>
      obtain rfl := Option.some.inj hs
      exact .inr (.inl hf)
    | _ => exact .inl ⟨hs, hf⟩
  | kms op =>
    cases op with
    | endList seen => cases r <;> exact .inl ⟨hs, hf⟩
    | getPublicKey u =>
      cases r with
      | error e => exact .inl ⟨hs, hf⟩
      | ok pem' =>
        obtain rfl := Option.some.inj hf
        obtain rfl : u = source := hallowed source hs
        exact .inr (.inr hp)
    | _ => exact .inl ⟨hs, hf⟩
  | _ => exact .inl ⟨hs, hf⟩

end Steps

section Origins

structure Timed (s : State) (log : (production keyPath publicKey text).Log) : Prop where
  learnt : ∀ t, Learnt keyPath s (knowledge.known t log)
  complete : ∀ t, Complete keyPath s log t
  cached : ∀ c, s.caches.currentVersion .signer = some c → NewestSince keyPath s (sinceCachedVersion log) c.value
  lookup : ∀ t v, ((drafting publicKey text).known t log).version = some v → NewestSince keyPath s (sinceLookup t log) v
  draft : ∀ t v, ((drafting publicKey text).known t log).source = some v → NewestSince keyPath s (sinceDraft t log) v

variable {guard : (production keyPath publicKey text).Guard}

lemma Timed.listed (h : Timed s log) (he : a.op.exec keyPath a.choice s = some (a.reply, s'))
    (hallowed : knowledge.allowed (knowledge.known a.tid log) a.op) (hl : lists (.act a) = some a.tid) {names : List String}
    (hnames : (knowledge.next (knowledge.known a.tid log) a.op a.reply).listed = some names) (hv : newest names = some v) :
    NewestSince keyPath s' (.act a :: sinceListing a.tid log) v := by
  have hlisted : (knowledge.known a.tid (.act a :: log)).listed = some names :=
    (congrArg Knowledge.listed (known_act_self a log)).trans hnames
  have hsince : sinceListing a.tid (.act a :: log) = .act a :: sinceListing a.tid log := recent_other (not_beginsList hl)
  rw [← hsince]
  exact newestSince_listed (learnt_act h.learnt he a.tid) ((h.complete a.tid).act hallowed he) hlisted hv

lemma Timed.act (h : Timed s log)
    (ha : Allowed (drafting publicKey text) (fun _ => True) (within knowledge guard) s log a s') : Timed s' (.act a :: log) := by
  have he := exec_of_served ha.exec
  obtain ⟨-, hk, -⟩ := within_of_act ha.guard
  refine ⟨learnt_act h.learnt he, fun t => (h.complete t).act hk he, fun c hc => ?_, fun t v hv => ?_, fun t v hv => ?_⟩
  · rcases signer_cached he hc with ⟨hc, -, hkept⟩ | hop
    · rw [sinceCachedVersion_kept (signerStorer_none hkept)]
      exact (h.cached c hc).act he
    · rw [hop] at hk
      obtain ⟨names, hnames, hnewest⟩ := hk
      rw [sinceCachedVersion_now (signerStorer_eq hop)]
      exact (newestSince_listed (h.learnt a.tid) (h.complete a.tid) hnames hnewest).act he
  · by_cases ht : a.tid = t
    · subst ht
      rw [known_act_self] at hv
      rcases version_next he hv with ⟨hv, hf, hl⟩ | ⟨hf, c, hc, rfl⟩ | ⟨hl, hf, names, hnames, hnewest⟩
      · rw [sinceLookup_kept hf hl]
        exact (h.lookup a.tid v hv).act he
      · rw [sinceLookup_found hf]
        exact (h.cached c hc).act he
      · rw [sinceLookup_listed hl hf]
        exact h.listed he hk hl hnames hnewest
    · rw [known_act_ne ht] at hv
      rw [sinceLookup_kept (fun hf => ht (finds_tid hf)) fun hl => ht (lists_tid hl)]
      exact (h.lookup t v hv).act he
  · by_cases ht : a.tid = t
    · subst ht
      rw [known_act_self] at hv
      rcases source_next hv with ⟨hv, hkept⟩ | ⟨hop, hdrafts⟩
      · rw [sinceDraft_kept hkept]
        exact (h.draft a.tid v hv).act he
      · have hallowed := ha.allowed
        rw [hop] at hallowed
        rw [sinceDraft_now hdrafts]
        exact (h.lookup a.tid v hallowed.1).act he
    · rw [known_act_ne ht] at hv
      rw [sinceDraft_kept fun hd => ht (drafts_tid hd)]
      exact (h.draft t v hv).act he

lemma Timed.env {e : Environment} (h : Timed s log) (he : e.exec s = some s') : Timed s' (.env e :: log) where
  learnt t := (h.learnt t).mono (enabledNames_env he)
  complete t := (h.complete t).env he
  cached c hc := by
    rw [caches_of_env he] at hc
    rw [sinceCachedVersion_kept rfl]
    exact (h.cached c hc).env he
  lookup t v hv := by
    rw [sinceLookup_kept (by simp [finds]) (by simp [lists])]
    exact (h.lookup t v hv).env he
  draft t v hv := by
    rw [sinceDraft_kept (by simp [drafts])]
    exact (h.draft t v hv).env he

end Origins

section Invariants

structure Faithful (s : State) (log : (production keyPath publicKey text).Log) : Prop where
  timed : Timed s log
  cached : ∀ v pem, s.caches.fingerprints v = some pem → pem = publicKey v
  fingerprint : ∀ t v pem, ((drafting publicKey text).known t log).source = some v →
    ((drafting publicKey text).known t log).fingerprint = some pem → pem = publicKey v
  version : ∀ t v source, ((drafting publicKey text).known t log).version = some v →
    ((drafting publicKey text).known t log).source = some source → v = source
  held : ∀ t source, ((drafting publicKey text).known t log).source = some source →
    ((drafting publicKey text).known t log).held = some source
  untouched : ∀ t v c, ((drafting publicKey text).known t log).held = some v → isUntouched t log = true →
    s.caches.currentVersion .signer = some c → c.value = v

variable {c : Cached String}

abbrev Steps (s : State) (log : (production keyPath publicKey text).Log)
    (a : (production keyPath publicKey text).Action) (s' : State) : Prop :=
  Allowed (drafting publicKey text) (fun _ => True) (within knowledge looksUpInTime) s log a s'

/-- The version found in the cache is that of the fingerprint, because the cache has not been
touched or because no version has become enabled. -/
lemma Faithful.found (h : Faithful s log) (ha : Steps s log a s')
    (hs : ((drafting publicKey text).known a.tid log).source = some source) (hf : finds (.act a) = some a.tid)
    (hc : s.caches.currentVersion .signer = some c) : c.value = source := by
  rcases (within_of_act ha.guard).1.1 a.tid hf (by rw [hs]; rfl) with hu | ⟨hdraft, hcached⟩
  · exact h.untouched a.tid source c (h.held a.tid source hs) hu hc
  · exact (h.timed.cached c hc).unique (h.timed.draft a.tid source hs) hcached hdraft

/-- So is the newest version of a listing, when no version has become enabled. -/
lemma Faithful.listed (h : Faithful s log) (ha : Steps s log a s')
    (hs : ((drafting publicKey text).known a.tid log).source = some source) (hl : lists (.act a) = some a.tid)
    {names : List String} (hnames : (knowledge.next (knowledge.known a.tid log) a.op a.reply).listed = some names)
    (hv : newest names = some v) : v = source := by
  obtain ⟨hguard, hk, -⟩ := within_of_act ha.guard
  obtain ⟨hdraft, hlisting⟩ := hguard.2 a.tid hl (by rw [hs]; rfl)
  have he := exec_of_served ha.exec
  exact (h.timed.listed he hk hl hnames hv).unique ((h.timed.draft a.tid source hs).act he) hlisting hdraft

lemma Faithful.version_act (h : Faithful s log) (ha : Steps s log a s')
    (hv : ((drafting publicKey text).known t (.act a :: log)).version = some v)
    (hs : ((drafting publicKey text).known t (.act a :: log)).source = some source) : v = source := by
  by_cases ht : a.tid = t
  · subst ht
    rw [known_act_self] at hv hs
    have he := exec_of_served ha.exec
    rcases source_next hs with ⟨hs, -⟩ | ⟨hop, -⟩
    · rcases version_next he hv with ⟨hv, -, -⟩ | ⟨hf, c, hc, rfl⟩ | ⟨hl, -, names, hnames, hnewest⟩
      · exact h.version a.tid v source hv hs
      · exact h.found ha hs hf hc
      · exact h.listed ha hs hl hnames hnewest
    · have hallowed := ha.allowed
      rw [hop] at hallowed
      rcases version_next (k := knowledge.start) he hv with ⟨hv, -, -⟩ | ⟨hf, -⟩ | ⟨hl, -⟩
      · exact Option.some.inj (hv.symm.trans hallowed.1)
      · rw [finds_of_reads hop] at hf
        cases hf
      · rw [lists_of_reads hop] at hl
        cases hl
  · rw [known_act_ne ht] at hv hs
    exact h.version t v source hv hs

lemma Faithful.held_act (h : Faithful s log) (ha : Steps s log a s')
    (hs : ((drafting publicKey text).known t (.act a :: log)).source = some source) :
    ((drafting publicKey text).known t (.act a :: log)).held = some source := by
  by_cases ht : a.tid = t
  · subst ht
    rw [known_act_self] at hs ⊢
    have he := exec_of_served ha.exec
    have hallowed := ha.allowed
    rcases source_next hs with ⟨hs, -⟩ | ⟨hop, -⟩
    · obtain ⟨v, hv⟩ := Option.isSome_iff_exists.mp (held_isSome (h.held a.tid source hs) a.op a.reply)
      rw [hv]
      rcases held_next he hv with ⟨hv, -, -⟩ | ⟨hf, c, hc, rfl⟩ | hop
      · rw [← hv]
        exact h.held a.tid source hs
      · rw [h.found ha hs hf hc]
      · rw [hop] at hallowed
        rw [h.version a.tid v source hallowed hs]
    · rw [hop] at hallowed
      rw [held_of_reads hop]
      exact hallowed.2
  · rw [known_act_ne ht] at hs ⊢
    exact h.held t source hs

lemma Faithful.untouched_act (h : Faithful s log) (ha : Steps s log a s')
    (hv : ((drafting publicKey text).known t (.act a :: log)).held = some v) (hu : isUntouched t (.act a :: log) = true)
    (hc : s'.caches.currentVersion .signer = some c) : c.value = v := by
  have he := exec_of_served ha.exec
  by_cases ht : a.tid = t
  · subst ht
    rw [known_act_self] at hv
    rcases held_next he hv with ⟨hv, hf, hstored⟩ | ⟨hf, c', hc', rfl⟩ | hop
    · have hholds : holds a.tid (.act a) log = false := by simp [holds, hf, hstored]
      rcases signer_cached he hc with ⟨hc, -, -⟩ | hop
      · exact h.untouched a.tid v c hv (untouched_of_cons hholds hu) hc
      · rw [signerStorer_eq hop] at hstored
        cases hstored
    · rcases signer_cached he hc with ⟨hc, -, -⟩ | hop
      · rw [Option.some.inj (hc.symm.trans hc')]
      · rw [finds_of_stores hop] at hf
        cases hf
    · rcases signer_cached he hc with ⟨-, -, hkept⟩ | hop'
      · exact absurd hop (hkept v)
      · cases hop.symm.trans hop'
        rfl
  · rw [known_act_ne ht] at hv
    have hholds : holds t (.act a) log = false := by
      simp only [holds, decide_eq_false_iff_not, not_or]
      exact ⟨fun hf => ht (finds_tid hf), fun hst => ht (signerStorer_tid hst)⟩
    rcases signer_cached he hc with ⟨hc, -, -⟩ | hop
    · exact h.untouched t v c hv (untouched_of_cons hholds hu) hc
    · have hdisturbs : disturbs t (.act a) log = true := by simp [disturbs, signerStorer_eq hop, ht]
      simp [isUntouched, since, hdisturbs] at hu

lemma Faithful.act (h : Faithful s log) (ha : Steps s log a s') : Faithful s' (.act a :: log) where
  timed := h.timed.act ha
  cached v pem hc := by
    rcases fingerprints_exec (exec_of_served ha.exec) hc with hc | hop
    · exact h.cached v pem hc
    · have hallowed := ha.allowed
      rw [hop] at hallowed
      exact h.fingerprint a.tid v pem hallowed.1 hallowed.2
  fingerprint t v pem hs hf := by
    by_cases ht : a.tid = t
    · subst ht
      rw [known_act_self] at hs hf
      rcases fingerprint_next (exec_of_served ha.exec) ha.possible ha.allowed hs hf with ⟨hs, hf⟩ | hc | hpem
      · exact h.fingerprint a.tid v pem hs hf
      · exact h.cached v pem hc
      · exact hpem
    · rw [known_act_ne ht] at hs hf
      exact h.fingerprint t v pem hs hf
  version _ _ _ hv hs := h.version_act ha hv hs
  held _ _ hs := h.held_act ha hs
  untouched _ _ _ hv hu hc := h.untouched_act ha hv hu hc

lemma Faithful.env {e : Environment} (h : Faithful s log) (he : e.exec s = some s') : Faithful s' (.env e :: log) := by
  refine ⟨h.timed.env he, ?_, h.fingerprint, h.version, h.held, fun t v c hv hu hc => ?_⟩
  · rw [caches_of_env he]
    exact h.cached
  · rw [caches_of_env he] at hc
    exact h.untouched t v c hv (untouched_of_cons rfl hu) hc

lemma faithful_inductive : Inductive (S := production keyPath publicKey text) (drafting publicKey text) (fun _ => True)
    (within knowledge looksUpInTime) Faithful :=
  ⟨fun hi ha => hi.act ha, fun hi _ he _ => hi.env he⟩

lemma faithful_started (now : ℕ) (versions : List CryptoKeyVersion) :
    Faithful (⟨now, versions, {}⟩ : State) ([] : (production keyPath publicKey text).Log) where
  timed := ⟨fun _ => ⟨nofun, nofun⟩, complete_started, nofun, nofun, nofun⟩
  cached := nofun
  fingerprint := nofun
  version := nofun
  held := nofun
  untouched := nofun

theorem certificate_names_its_key {now : ℕ} {versions : List CryptoKeyVersion}
    {c d : (production keyPath publicKey text).Config} {certificate : Certificate}
    (hr : Reachable looksUpInTime (producing keyPath publicKey text now versions) c)
    (hp : Performs looksUpInTime c a d) (ha : a.op = .answer (.signed certificate)) :
    text.keyFingerprint certificate.unsignedToken.claims = some (publicKey certificate.kid) := by
  have hconforms : Conforms (drafting publicKey text) (fun _ => True) (producing keyPath publicKey text now versions) :=
    conforms_initial trivial
  have hlearns : Conforms knowledge (fun _ => True) (producing keyPath publicKey text now versions) :=
    conforms_initial trivial
  have hfaithful : Faithful c.state c.log :=
    faithful_inductive.run drafting_governs hconforms (faithful_started now versions)
      (hlearns.reachable_within productions_learn hr)
  have hallowed := ((hconforms.reachable drafting_governs hr).allowed_of_performs drafting_governs hp).allowed
  rw [ha] at hallowed
  obtain ⟨hversion, hsource, hsome, hclaims⟩ := hallowed
  obtain ⟨source, hsource⟩ := Option.isSome_iff_exists.mp hsource
  obtain ⟨pem, hpem⟩ := Option.isSome_iff_exists.mp hsome
  obtain rfl := hfaithful.fingerprint a.tid source pem hsource (hclaims.symm.trans hpem)
  rw [hpem, hfaithful.version a.tid certificate.kid source hversion hsource]

end Invariants

section Examples

def pemOf (keyVersionPath : String) : String := "PEM " ++ keyVersionPath

/-- The length of the fingerprint in ones, the fingerprint, and the subject. -/
def plainText : ClaimsText where
  stringify claims := String.ofList (List.replicate claims.keyFingerprint.toList.length '1' ++
    ':' :: (claims.keyFingerprint.toList ++ claims.sub.toList))
  keyFingerprint claims :=
    some (String.ofList (((claims.toList.dropWhile (· == '1')).drop 1).take (claims.toList.takeWhile (· == '1')).length))
  keyFingerprint_stringify claims := by
    have hones : ∀ c ∈ List.replicate claims.keyFingerprint.toList.length '1', (c == '1') = true := by
      intro c hc
      rw [List.eq_of_mem_replicate hc]
      rfl
    rw [String.toList_ofList, List.dropWhile_append_of_pos hones, List.takeWhile_append_of_pos hones]
    simp

def someClaims : Deletion.Claims :=
  Deletion.claimsFor "u1" "t1" ⟨"r1", some "t1", "u1", .cascadeComplete, 0, [], [], none, none, none, none, none⟩
    ⟨.shredded, 0, some 0, none, none, none⟩ [] [] [] "" 0 0

abbrev ProductionEvent := (production "key" pemOf plainText).Event

def soleVersion : (production "key" pemOf plainText).Config := producing "key" pemOf plainText 0 [⟨1, .enabled⟩]

def drafted (t : ℕ) : List ProductionEvent :=
  [.start (.issueAndStoreCertificate someClaims [⟨none, 1⟩]), .act t .done, .act t .done, .act t (.listed [firstVersion]),
    .act t .done, .act t .done, .act t (.text (pemOf firstVersion)), .act t .done]

def rotatedMeanwhile (t : ℕ) : List ProductionEvent :=
  [.start (.rotateSigningKey 1), .act t .done, .act t .done, .act t (.listed [firstVersion]), .act t .done,
    .act t (.created 2), .act t .done, .env (.generation 2 .enabled), .act t .done, .act t .done]

def SigningOp.certificate : SigningOp → Option Certificate
  | .answer (.signed certificate) => some certificate
  | _ => none

lemma eq_answer {op : SigningOp} {certificate : Certificate} (h : op.certificate = some certificate) :
    op = .answer (.signed certificate) := by
  cases op with
  | answer a =>
    cases a with
    | signed signed =>
      obtain rfl := Option.some.inj h
      rfl
    | _ => cases h
  | _ => cases h

theorem certificate_names_its_key_sole :
    ∃ (c d : (production "key" pemOf plainText).Config) (a : (production "key" pemOf plainText).Action)
      (certificate : Certificate), Reachable looksUpInTime soleVersion c ∧ Performs looksUpInTime c a d ∧
      a.op = .answer (.signed certificate) ∧ certificate.kid = firstVersion ∧
      plainText.keyFingerprint certificate.unsignedToken.claims = some (pemOf certificate.kid) := by
  have h : ∃ (c : (production "key" pemOf plainText).Config) (a : (production "key" pemOf plainText).Action)
      (d : (production "key" pemOf plainText).Config), Reachable looksUpInTime soleVersion c ∧
      Performs looksUpInTime c a d ∧ a.op.certificate.any (fun certificate => certificate.kid = firstVersion) = true :=
    exists_performs (drafted 0 ++ [.act 0 .done, .act 0 (.text "signature")]) 0 Outcome.done _ (by decide +kernel)
  obtain ⟨c, a, d, hr, hp, ha⟩ := h
  obtain ⟨certificate, hcertificate, hkid⟩ := (Option.any_eq_true _ _).mp ha
  have hop := eq_answer hcertificate
  exact ⟨c, d, a, certificate, hr, hp, hop, of_decide_eq_true hkid, certificate_names_its_key hr hp hop⟩

/-- The key is rotated after the fingerprint has been put in, and before the claims are signed. -/
theorem fingerprint_of_another_key :
    ∃ (c : (production "key" pemOf plainText).Config) (a : (production "key" pemOf plainText).Action)
      (d : (production "key" pemOf plainText).Config), Reachable free soleVersion c ∧ Performs free c a d ∧
      a.op.certificate.any (fun certificate => certificate.kid = secondVersion ∧
        plainText.keyFingerprint certificate.unsignedToken.claims = some (pemOf firstVersion)) = true ∧
      pemOf firstVersion ≠ pemOf secondVersion :=
  exists_performs (drafted 0 ++ rotatedMeanwhile 1 ++ [.act 0 .done, .act 0 .done,
    .act 0 (.listed [firstVersion, secondVersion]), .act 0 .done, .act 0 (.text "signature")]) 0 Outcome.done _
    (by decide +kernel)

end Examples

end ChameleonVault.SigningKeys
