import ChameleonVault.SigningKeys.Schedules

/-! Whether the certificates that were issued can be verified against the published keys. -/

namespace ChameleonVault.SigningKeys

open Concurrency Interleaving Discipline

variable {keyPath : String}

section Certificates

def issues : (signing keyPath).Entry → Option Certificate
  | .act ⟨_, .answer (.signed certificate), _, _⟩ => some certificate
  | _ => none

def signerVersions (log : (signing keyPath).Log) : List String := log.filterMap signerStores

def certificates (log : (signing keyPath).Log) : List Certificate := log.filterMap issues

def kids (log : (signing keyPath).Log) : List String := (certificates log).map Certificate.kid

/-- The signer takes up no version that became enabled after the cached list was begun, unless the
caches have been dropped for it; and no list is cached that was begun before a version became
enabled which the caches have been dropped for or the signer has taken up. -/
def refillsInTime : (signing keyPath).Guard := fun s log e =>
  (∀ value ∈ signerStores e, value ∈ enabled keyPath (sinceCachedList log) →
      (live s.clock s.caches.enabledVersions).isSome = true → value ∈ invalidated log) ∧
    ∀ t ∈ listStorer e, ∀ version ∈ enabled keyPath (sinceListing t log),
      version ∉ invalidated log ∧ version ∉ signerVersions log

instance : ∀ s log e, Decidable (@refillsInTime keyPath s log e) :=
  fun _ _ _ => inferInstanceAs (Decidable (_ ∧ _))

variable {log : (signing keyPath).Log} {a : (signing keyPath).Action} {e : (signing keyPath).Entry} {v kid : String}

lemma eq_of_issues {certificate : Certificate} (h : issues (.act a) = some certificate) :
    a.op = .answer (.signed certificate) := by
  obtain ⟨t, op, choice, reply⟩ := a
  cases op with
  | answer answer =>
    cases answer with
    | signed signed =>
      obtain rfl := Option.some.inj h
      rfl
    | _ => cases h
  | _ => cases h

lemma mem_kids_cons : kid ∈ kids (e :: log) ↔
    (∃ certificate, issues e = some certificate ∧ certificate.kid = kid) ∨ kid ∈ kids log := by
  cases h : issues e with
  | none => simp [kids, certificates, h]
  | some certificate => simp [kids, certificates, h, eq_comm]

lemma kids_subset (e : (signing keyPath).Entry) (log : (signing keyPath).Log) : kids log ⊆ kids (e :: log) :=
  fun _ h => mem_kids_cons.mpr (.inr h)

end Certificates

section Invariants

variable {s s' : State} {log : (signing keyPath).Log} {a : (signing keyPath).Action} {v : String}

structure Published (s : State) (log : (signing keyPath).Log) : Prop where
  learnt : ∀ t, Learnt keyPath s (knowledge.known t log)
  complete : ∀ t, Complete keyPath s log t
  enabled : signerVersions log ⊆ enabledNames keyPath s.versions
  dropped : invalidated log ⊆ enabledNames keyPath s.versions
  refilled : ∀ versions, live s.clock s.caches.enabledVersions = some versions →
    ∀ name ∈ enabledNames keyPath s.versions, name ∈ SigningKeys.enabled keyPath (sinceCachedList log) ∨ name ∈ versions
  rotated : ∀ versions, live s.clock s.caches.enabledVersions = some versions → invalidated log ⊆ versions
  listed : ∀ versions, live s.clock s.caches.enabledVersions = some versions → signerVersions log ⊆ versions
  cached : ∀ c, s.caches.currentVersion .signer = some c → c.value ∈ signerVersions log
  signer : ∀ t v, (knowledge.known t log).signer = some v → v ∈ signerVersions log
  kids : kids log ⊆ signerVersions log
  covers : ∀ t, Covers (SigningKeys.kids (prior (looksUp isListLookup t) log)) (knowledge.known t log)
  versions : ∀ t versions, (knowledge.known t log).versions = some versions →
    SigningKeys.kids (prior (looksUp isListLookup t) log) ⊆ versions

lemma Published.taken (h : Published s log) (ha : Allowed knowledge (fun _ => True) refillsInTime s log a s')
    (hv : v ∈ signerVersions (.act a :: log)) : v ∈ enabledNames keyPath s.versions := by
  rcases mem_filterMap_cons.mp hv with hstore | hv
  · have hallowed := ha.allowed
    rw [eq_of_signerStores hstore] at hallowed
    obtain ⟨names, hnames, hnewest⟩ := hallowed
    exact (h.learnt a.tid).listed names hnames (newest_mem hnewest)
  · exact h.enabled hv

/-- A version for which the caches are dropped has been seen enabled. -/
lemma Published.droppedEnabled (h : Published s log) (ha : Allowed knowledge (fun _ => True) refillsInTime s log a s')
    (hv : v ∈ invalidated (.act a :: log)) : v ∈ enabledNames keyPath s.versions := by
  rcases mem_filterMap_cons.mp hv with hop | hv
  · have hallowed := ha.allowed
    rw [eq_of_invalidates hop] at hallowed
    exact (h.learnt a.tid).ready v hallowed
  · exact h.dropped hv

/-- What is stored of a listing has every version that was enabled before it began. -/
lemma Published.stored (h : Published s log) (ha : Allowed knowledge (fun _ => True) refillsInTime s log a s')
    {versions : List String} (hop : a.op = .memory (.setEnabledVersions versions))
    (hv : v ∈ enabledNames keyPath s.versions) :
    v ∈ SigningKeys.enabled keyPath (sinceListing a.tid log) ∨ v ∈ versions := by
  have hallowed := ha.allowed
  rw [hop] at hallowed
  exact (h.complete a.tid).listed hallowed hv

lemma Published.act (h : Published s log) (ha : Allowed knowledge (fun _ => True) refillsInTime s log a s') :
    Published s' (.act a :: log) where
  learnt := learnt_act h.learnt ha.exec
  complete t := (h.complete t).act ha.allowed ha.exec
  enabled := by
    intro v hv
    rw [enabledNames_exec ha.exec]
    exact h.taken ha hv
  dropped := by
    intro v hv
    rw [enabledNames_exec ha.exec]
    exact h.droppedEnabled ha hv
  refilled := by
    intro versions hl name hname
    rw [enabledNames_exec ha.exec] at hname
    rcases enabledVersions_live ha.exec hl with ⟨hl, -, hkept⟩ | hop
    · rw [sinceCachedList_kept (listStorer_none hkept)]
      exact h.refilled versions hl name hname
    · rw [sinceCachedList_now (listStorer_eq hop)]
      exact h.stored ha hop hname
  rotated := by
    intro versions hl v hv
    rcases enabledVersions_live ha.exec hl with ⟨hl, hkept, -⟩ | hop
    · rcases mem_filterMap_cons.mp hv with hdropped | hv
      · exact absurd (eq_of_invalidates hdropped) (hkept v)
      · exact h.rotated versions hl hv
    · rcases mem_filterMap_cons.mp hv with hdropped | hv
      · exact nomatch hop.symm.trans (eq_of_invalidates hdropped)
      · exact (h.stored ha hop (h.dropped hv)).resolve_left fun hlate => (ha.guard.2 a.tid (listStorer_eq hop) v hlate).1 hv
  listed := by
    intro versions hl v hv
    have henabled := h.taken ha hv
    rcases enabledVersions_live ha.exec hl with ⟨hl, -, -⟩ | hop
    · rcases mem_filterMap_cons.mp hv with hstore | hv
      · rcases h.refilled versions hl v henabled with hlate | hv
        · exact h.rotated versions hl (ha.guard.1 v hstore hlate (hl ▸ rfl))
        · exact hv
      · exact h.listed versions hl hv
    · rcases mem_filterMap_cons.mp hv with hstore | hv
      · exact nomatch hop.symm.trans (eq_of_signerStores hstore)
      · exact (h.stored ha hop henabled).resolve_left fun hlate => (ha.guard.2 a.tid (listStorer_eq hop) v hlate).2 hv
  cached := by
    intro c hc
    apply mem_filterMap_cons.mpr
    rcases signer_cached ha.exec hc with ⟨hc, -⟩ | hop
    · exact .inr (h.cached c hc)
    · exact .inl (signerStores_eq hop)
  signer := by
    intro t v hq
    apply mem_filterMap_cons.mpr
    rcases signer_act ha.exec hq with ⟨hq, -⟩ | ⟨hop, -, -⟩ | ⟨hl, -⟩
    · exact .inr (h.signer t v hq)
    · exact .inl (signerStores_eq hop)
    · obtain ⟨c, hc, -, rfl⟩ := live_eq_some_iff.mp hl
      exact .inr (h.cached c hc)
  kids := by
    intro kid hk
    apply mem_filterMap_cons.mpr
    rcases mem_kids_cons.mp hk with ⟨certificate, hissued, rfl⟩ | hk
    · have hallowed := ha.allowed
      rw [eq_of_issues hissued] at hallowed
      exact .inr (h.signer a.tid _ hallowed)
    · exact .inr (h.kids hk)
  covers t := covers_act kids_subset (List.Subset.trans h.kids h.enabled)
    (fun op hop => .inr (isListLookup_iff.mp hop)) (h.covers t) ha.allowed ha.exec
  versions := by
    intro t versions hq
    rcases versions_act ha.exec hq with ⟨hq, hlookup⟩ | ⟨hop, rfl, hlookup⟩ | ⟨hl, hlookup⟩
    · rw [prior_other hlookup]
      exact h.versions t versions hq
    · rw [prior_other hlookup]
      have hallowed := ha.allowed
      rw [hop] at hallowed
      exact (h.covers a.tid).listed versions hallowed
    · rw [prior_now hlookup]
      exact List.Subset.trans h.kids (h.listed versions hl)

lemma Published.env {e : Environment} (h : Published s log) (he : e.exec s = some s') : Published s' (.env e :: log) where
  learnt t := (h.learnt t).mono (enabledNames_env he)
  complete t := (h.complete t).env he
  enabled := List.Subset.trans h.enabled (enabledNames_env he)
  dropped := List.Subset.trans h.dropped (enabledNames_env he)
  refilled := by
    intro versions hl name hname
    rw [sinceCachedList_kept rfl, SigningKeys.enabled, mem_filterMap_cons]
    rcases enabledNames_of_env he hname with hname | hnow
    · exact (h.refilled versions (enabledVersions_env he hl) name hname).imp .inr id
    · exact .inl (.inl hnow)
  rotated versions hl := h.rotated versions (enabledVersions_env he hl)
  listed versions hl := h.listed versions (enabledVersions_env he hl)
  cached := by
    rw [caches_of_env he]
    exact h.cached
  signer := h.signer
  kids := h.kids
  covers := h.covers
  versions := h.versions

lemma published_inductive : Inductive (S := signing keyPath) knowledge (fun _ => True) refillsInTime Published :=
  ⟨fun hi ha => hi.act ha, fun hi _ he _ => hi.env he⟩

lemma published_started (now : ℕ) (versions : List CryptoKeyVersion) :
    Published (⟨now, versions, {}⟩ : State) ([] : (signing keyPath).Log) where
  learnt _ := ⟨nofun, nofun⟩
  complete := complete_started
  enabled := List.nil_subset _
  dropped := List.nil_subset _
  refilled := nofun
  rotated := nofun
  listed := nofun
  cached := nofun
  signer := nofun
  kids := List.nil_subset _
  covers _ := ⟨nofun, nofun⟩
  versions := nofun

theorem issued_certificates_published {now : ℕ} {versions : List CryptoKeyVersion} {c d : (signing keyPath).Config}
    {keys : List Jwk} (hr : Reachable refillsInTime (started keyPath now versions) c)
    (hp : Performs refillsInTime c a d) (ha : a.op = .answer (.published keys)) :
    ∀ certificate ∈ certificates (prior (looksUp isListLookup a.tid) c.log), certificate.kid ∈ keys.map Jwk.kid := by
  intro certificate hc
  have hconforms : Conforms knowledge (fun _ => True) (started keyPath now versions) := conforms_initial trivial
  have hpublished : Published c.state c.log :=
    published_inductive.run knowledge_governs hconforms (published_started now versions) hr
  have hallowed := ((hconforms.reachable knowledge_governs hr).allowed_of_performs knowledge_governs hp).allowed
  rw [ha] at hallowed
  exact hpublished.versions a.tid _ hallowed (List.mem_map_of_mem hc)

end Invariants

section Examples

abbrev SigningEvent := (signing "key").Event

def firstVersion : String := versionName "key" 1
def secondVersion : String := versionName "key" 2

def oneVersion : (signing "key").Config := started "key" 0 [⟨1, .enabled⟩]

def published (t : ℕ) : List SigningEvent :=
  [.start .getJwks, .act t .done, .act t .done, .act t (.listed [firstVersion]), .act t .done, .act t .done,
    .act t (.text "pem"), .act t .done, .act t .done]

def publishedFromCache (t : ℕ) : List SigningEvent := [.start .getJwks, .act t .done, .act t .done]

def signed (t : ℕ) (names : List String) : List SigningEvent :=
  [.start (.signClaims "claims"), .act t .done, .act t .done, .act t (.listed names), .act t .done,
    .act t (.text "signature"), .act t .done]

def rotating (t : ℕ) : List SigningEvent :=
  [.start (.rotateSigningKey 1), .act t .done, .act t .done, .act t (.listed [firstVersion]), .act t .done,
    .act t (.created 2), .act t .done, .env (.generation 2 .enabled)]

def rotatedTo (t : ℕ) : List SigningEvent :=
  rotating t ++ [.act t .done, .act t .done, .act t .done]

def republished (t : ℕ) : List SigningEvent :=
  [.start .getJwks, .act t .done, .act t .done, .act t (.listed [firstVersion, secondVersion]), .act t .done,
    .pick t true, .act t .done, .act t .done, .act t (.text "new pem"), .act t .done]

def SigningOp.keys : SigningOp → Option (List Jwk)
  | .answer (.published keys) => some keys
  | _ => none

lemma eq_published {op : SigningOp} {keys : List Jwk} (h : op.keys = some keys) : op = .answer (.published keys) := by
  cases op with
  | answer a =>
    cases a with
    | published published =>
      obtain rfl := Option.some.inj h
      rfl
    | _ => cases h
  | _ => cases h

def bothKeys : List Jwk := [{ pem := "pem", kid := firstVersion }, { pem := "new pem", kid := secondVersion }]

/-- The list from before the rotation is dropped with it, and the next one has both versions. -/
theorem issued_certificates_published_rotated :
    ∃ (c d : (signing "key").Config) (a : (signing "key").Action), Reachable refillsInTime oneVersion c ∧
      Performs refillsInTime c a d ∧ a.op = .answer (.published bothKeys) ∧
      (certificates (prior (looksUp isListLookup a.tid) c.log)).map Certificate.kid = [secondVersion] ∧
      ∀ certificate ∈ certificates (prior (looksUp isListLookup a.tid) c.log), certificate.kid ∈ bothKeys.map Jwk.kid := by
  have h : ∃ (c : (signing "key").Config) (a : (signing "key").Action) (d : (signing "key").Config),
      Reachable refillsInTime oneVersion c ∧ Performs refillsInTime c a d ∧ a.op.keys = some bothKeys ∧
      (certificates (prior (looksUp isListLookup a.tid) c.log)).map Certificate.kid = [secondVersion] :=
    exists_performs (published 0 ++ rotatedTo 1 ++ signed 2 [firstVersion, secondVersion] ++ republished 3) 3 Outcome.done _
      (by decide +kernel)
  obtain ⟨c, a, d, hr, hp, ha, hcertificates⟩ := h
  have hop := eq_published ha
  exact ⟨c, d, a, hr, hp, hop, hcertificates, issued_certificates_published hr hp hop⟩

/-- The signer takes up the new version while the list from before it is still cached. -/
theorem issued_certificate_unpublished :
    ∃ (c : (signing "key").Config) (a : (signing "key").Action) (d : (signing "key").Config),
      Reachable free oneVersion c ∧ Performs free c a d ∧ a.op.keys = some [{ pem := "pem", kid := firstVersion }] ∧
      (certificates (prior (looksUp isListLookup a.tid) c.log)).map Certificate.kid = [secondVersion] ∧
      secondVersion ≠ firstVersion :=
  exists_performs (published 0 ++ rotating 1 ++ signed 2 [firstVersion, secondVersion] ++ publishedFromCache 3) 3 Outcome.done _
    (by decide +kernel)

end Examples

end ChameleonVault.SigningKeys
