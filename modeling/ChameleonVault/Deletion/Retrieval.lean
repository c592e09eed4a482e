import ChameleonVault.Deletion.Archive

/-! Chaining and storing a certificate keep the archive, so every issued certificate can be read back. -/

namespace ChameleonVault.Deletion

open Collections Concurrency Interleaving Discipline Call DeletionRequestService HashChain
open CertificateChain (certificateLinks core SameEntries core_eq)
open KeyRegistry (Date truthy)

variable {d : Deployment} {w w' : World} {log : (vault d).Log} {a : (vault d).Action}
  {tenantId id path uri hash : String} {request : DeletionRequest} {certificate : Certificate}
  {entry : CertificateChainEntry}

section Append

variable {claims : Claims} {keyVersion signature : String}

lemma lookup_appendToChain : (w.appendToChain d tenantId id claims keyVersion signature).2.chainEntries.lookup
      (w.appendToChain d tenantId id claims keyVersion signature).1.certificateHash =
    some { tenantId := tenantId, sequence := (w.appendToChain d tenantId id claims keyVersion signature).1.sequence
           previousHash := (w.appendToChain d tenantId id claims keyVersion signature).1.previousHash
           deletionRequestId := id, createdAt := w.clock } :=
  AList.lookup_insert _

lemma lookup_appendToChain_ne (h : hash ≠ (w.appendToChain d tenantId id claims keyVersion signature).1.certificateHash) :
    (w.appendToChain d tenantId id claims keyVersion signature).2.chainEntries.lookup hash =
      w.chainEntries.lookup hash :=
  AList.lookup_insert_ne h

lemma chains_appendToChain : Chains d id (w.appendToChain d tenantId id claims keyVersion signature).1.certificate
    (w.appendToChain d tenantId id claims keyVersion signature).2 :=
  ⟨_, lookup_appendToChain, rfl, rfl, rfl⟩

lemma grows_appendToChain
    (hf : w.chainEntries.lookup (w.appendToChain d tenantId id claims keyVersion signature).1.certificateHash = none) :
    Grows w (w.appendToChain d tenantId id claims keyVersion signature).2 where
  entries hash entry hl := by
    refine ⟨entry, ?_, rfl⟩
    rw [lookup_appendToChain_ne, hl]
    rintro rfl
    rw [hf] at hl
    contradiction
  objects _ stored hl := ⟨stored, hl, rfl⟩
  stored _ hs := hs

lemma Archive.linked_head (h : Archive w log)
    (hf : w.chainEntries.lookup (w.appendToChain d tenantId id claims keyVersion signature).1.certificateHash = none)
    (hp : entry.previousHash = (w.appendToChain d tenantId id claims keyVersion signature).1.previousHash)
    (hs : entry.sequence = (w.appendToChain d tenantId id claims keyVersion signature).1.sequence) :
    Linked (w.appendToChain d tenantId id claims keyVersion signature).2 entry := by
  have hg := grows_appendToChain hf
  rw [Linked, hp, hs]
  simp only [World.appendToChain]
  cases hhead : w.certificateChain.lookup (d.chainDocument tenantId) with
  | none => exact .inl ⟨rfl, rfl⟩
  | some state =>
    obtain ⟨hash, previous, hlast, hl, hseq⟩ := h.head _ state hhead
    obtain ⟨previous', hl', hcore⟩ := hg.entries hash previous hl
    refine .inr ⟨hash, previous', hlast, ?_, ?_⟩
    · simpa [World.appendToChain, hhead] using hl'
    · rw [(core_eq hcore).2.1, hseq]
      rfl

lemma Archive.append (h : Archive w log) {e : (vault d).Entry} (hn : hasEntry id w = false)
    (hf : w.chainEntries.lookup (w.appendToChain d tenantId id claims keyVersion signature).1.certificateHash = none)
    (hchained : ∀ t id' certificate, (publishing.known t (e :: log)).chained = some (id', certificate) →
      (publishing.known t log).chained = some (id', certificate) ∨
        id' = id ∧ certificate = (w.appendToChain d tenantId id claims keyVersion signature).1.certificate)
    (hstored : ∀ t, (publishing.known t (e :: log)).stored = (publishing.known t log).stored) :
    Archive (w.appendToChain d tenantId id claims keyVersion signature).2 (e :: log) := by
  have hg := grows_appendToChain hf
  have hnew {hash : String} {entry : CertificateChainEntry}
      (hl : (w.appendToChain d tenantId id claims keyVersion signature).2.chainEntries.lookup hash = some entry) :
      (hash = (w.appendToChain d tenantId id claims keyVersion signature).1.certificateHash ∧
        entry.deletionRequestId = id ∧
        entry.previousHash = (w.appendToChain d tenantId id claims keyVersion signature).1.previousHash ∧
        entry.sequence = (w.appendToChain d tenantId id claims keyVersion signature).1.sequence) ∨
      w.chainEntries.lookup hash = some entry := by
    by_cases hh : hash = (w.appendToChain d tenantId id claims keyVersion signature).1.certificateHash
    · rw [hh, lookup_appendToChain] at hl
      obtain rfl := Option.some.inj hl
      exact .inl ⟨hh, rfl, rfl, rfl⟩
    · rw [lookup_appendToChain_ne hh] at hl
      exact .inr hl
  have hother {hash : String} {entry : CertificateChainEntry} (hl : w.chainEntries.lookup hash = some entry) :
      entry.deletionRequestId ≠ id := by
    intro hid
    rw [hasEntry_iff.mpr ⟨hash, entry, hl, hid⟩] at hn
    contradiction
  refine ⟨fun document state hl => ?_, fun hash entry hl => ?_, fun hash hash' entry entry' hl hl' hid => ?_,
    fun path stored hl => (h.object path stored hl).grows hg, fun t id' certificate hk => ?_,
    fun t id' uri hk => (h.stored t id' uri (hstored t ▸ hk)).grows hg, fun id' uri request hl hp => ?_, h.issued⟩
  · by_cases ht : document = d.chainDocument tenantId
    · subst ht
      obtain rfl := Option.some.inj ((AList.lookup_insert _).symm.trans hl)
      exact ⟨_, _, rfl, lookup_appendToChain, rfl⟩
    · have hold : w.certificateChain.lookup document = some state := (AList.lookup_insert_ne ht).symm.trans hl
      obtain ⟨hash, entry, hlast, hentry, hseq⟩ := h.head document state hold
      obtain ⟨entry', hentry', hcore⟩ := hg.entries hash entry hentry
      exact ⟨hash, entry', hlast, hentry', (core_eq hcore).2.1.trans hseq⟩
  · rcases hnew hl with ⟨-, -, hp, hs⟩ | hold
    · exact h.linked_head hf hp hs
    · exact (h.linked hash entry hold).grows hg rfl
  · rcases hnew hl with ⟨hh, hi, -⟩ | hold <;> rcases hnew hl' with ⟨hh', hi', -⟩ | hold'
    · rw [hh, hh']
    · exact absurd (hid.symm.trans hi) (hother hold')
    · exact absurd (hid.trans hi') (hother hold)
    · exact h.owner hash hash' entry entry' hold hold' hid
  · rcases hchained t id' certificate hk with hold | ⟨rfl, rfl⟩
    · exact (h.chained t id' certificate hold).grows hg
    · exact chains_appendToChain
  · obtain ⟨hr, hpre⟩ := h.recorded id' uri request hl hp
    refine ⟨hr.grows hg, hpre.grows hg fun hash entry hl hid => ?_⟩
    rcases hnew hl with ⟨-, hi, -⟩ | hold
    · have hhas := h.hasEntry_of_readable hr
      rw [← hid, hi, hn] at hhas
      contradiction
    · exact ⟨entry, hold, rfl⟩

end Append

section Upload

variable {userId : String} {chained : ChainedCertificate} {tsaTimestamp : Option TsaTimestampInfo}
  {rekorEntry : Option RekorLogEntryInfo}

lemma lookup_uploadCertificate :
    (w.uploadCertificate d userId id chained tenantId tsaTimestamp rekorEntry).2.bucket.lookup
      (World.certPath d tenantId id w.clock) =
    some ⟨chained.certificate, userId, id, w.clock, chained.certificateHash, tsaTimestamp, rekorEntry⟩ :=
  AList.lookup_insert _

lemma lookup_uploadCertificate_ne (h : path ≠ World.certPath d tenantId id w.clock) :
    (w.uploadCertificate d userId id chained tenantId tsaTimestamp rekorEntry).2.bucket.lookup path =
      w.bucket.lookup path :=
  AList.lookup_insert_ne h

lemma grows_uploadCertificate
    (ho : (w.bucket.lookup (World.certPath d tenantId id w.clock)).all fun stored => stored.deletionRequestId = id) :
    Grows w (w.uploadCertificate d userId id chained tenantId tsaTimestamp rekorEntry).2 where
  entries _ entry hl := ⟨entry, hl, rfl⟩
  objects path stored hl := by
    by_cases hp : path = World.certPath d tenantId id w.clock
    · rw [hp] at hl ⊢
      rw [hl] at ho
      exact ⟨_, lookup_uploadCertificate, (of_decide_eq_true ho).symm⟩
    · exact ⟨stored, (lookup_uploadCertificate_ne hp).trans hl, rfl⟩
  stored _ hs := hs

lemma Archive.upload (h : Archive w log) {e : (vault d).Entry} (hc : Chains d id chained.certificate w)
    (hp : OneLine (World.certPath d tenantId id w.clock))
    (ho : (w.bucket.lookup (World.certPath d tenantId id w.clock)).all fun stored => stored.deletionRequestId = id)
    (hchained : ∀ t, (publishing.known t (e :: log)).chained = (publishing.known t log).chained)
    (hstored : ∀ t id' uri, (publishing.known t (e :: log)).stored = some (id', uri) →
      (publishing.known t log).stored = some (id', uri) ∨ id' = id ∧
        uri = (w.uploadCertificate d userId id chained tenantId tsaTimestamp rekorEntry).1) :
    Archive (w.uploadCertificate d userId id chained tenantId tsaTimestamp rekorEntry).2 (e :: log) := by
  have hg : Grows w (w.uploadCertificate d userId id chained tenantId tsaTimestamp rekorEntry).2 :=
    grows_uploadCertificate ho
  refine ⟨h.head, h.linked, h.owner, fun path stored hl => ?_,
    fun t id' certificate hk => (h.chained t id' certificate (hchained t ▸ hk)).grows hg, fun t id' uri hk => ?_,
    fun id' uri request hl hu => ?_, h.issued⟩
  · by_cases hpath : path = World.certPath d tenantId id w.clock
    · rw [hpath, lookup_uploadCertificate] at hl
      obtain rfl := Option.some.inj hl
      exact hc.grows hg
    · rw [lookup_uploadCertificate_ne hpath] at hl
      exact (h.object path stored hl).grows hg
  · rcases hstored t id' uri hk with hold | ⟨rfl, rfl⟩
    · exact (h.stored t id' uri hold).grows hg
    · exact ⟨_, _, rfl, hp, lookup_uploadCertificate, rfl⟩
  · obtain ⟨hr, hpre⟩ := h.recorded id' uri request hl hu
    exact ⟨hr.grows hg, hpre.grows hg fun hash entry hl _ => ⟨entry, hl, rfl⟩⟩

end Upload

section Run

lemma known_of_next_eq (h : ∀ q, publishing.next q a.op a.reply = q) (t : ℕ) :
    publishing.known t (.act a :: log) = publishing.known t log := by
  rcases known_act_cases a t log with hk | ⟨-, hk⟩
  · exact hk
  · rw [hk, h]

lemma Archive.act (h : Archive w log) (ha : Allowed publishing Keyed (@retrievable d) w log a w') :
    Archive w' (.act a :: log) := by
  have hedit := h.edit ha
  have hexec := ha.exec
  have hallowed := ha.allowed
  have hguard := ha.guard
  obtain ⟨t, op, choice, reply⟩ := a
  simp only at hexec hallowed
  cases op
  case appendToChain tenantId id claims =>
    rcases appendToChain_cases hexec with ⟨keyVersion, signature, hs, rfl, hr⟩ | ⟨rfl, hr⟩
    · have hfresh := hguard.1
      simp only [appendsFresh, hs, Option.all_some, Bool.and_eq_true, Bool.not_eq_eq_eq_not, Bool.not_true,
        Option.isNone_iff_eq_none] at hfresh
      refine h.append hfresh.1 hfresh.2 (fun t' id' certificate hk => ?_) (fun t' => ?_)
      · rcases known_act_cases _ t' log with hold | ⟨-, hnext⟩
        · exact .inl (hold ▸ hk)
        · rw [hnext] at hk
          cases reply with
          | error err => exact .inl hk
          | ok chained =>
            obtain ⟨rfl, rfl⟩ := Prod.mk.inj (Option.some.inj hk)
            exact .inr ⟨rfl, by rw [hr chained rfl]⟩
      · rcases known_act_cases _ t' log with hold | ⟨-, hnext⟩
        · rw [hold]
        · rw [hnext]
          cases reply <;> rfl
    · refine hedit (.refl _) (known_of_next_eq fun q => ?_)
      cases reply with
      | error err => rfl
      | ok chained => exact absurd rfl (hr chained)
  case uploadCertificate userId id chained tenantId tsaTimestamp rekorEntry =>
    rcases uploadCertificate_cases hexec with ⟨htook, rfl, hr⟩ | ⟨rfl, hr⟩
    · have hapart := hguard.2.1
      simp only [uploadsApart, htook, Bool.not_true, Bool.false_or, Bool.and_eq_true, decide_eq_true_eq] at hapart
      refine h.upload (h.chained t id _ hallowed) hapart.1 hapart.2 (fun t' => ?_) (fun t' id' uri hk => ?_)
      · rcases known_act_cases _ t' log with hold | ⟨-, hnext⟩
        · rw [hold]
        · rw [hnext]
          cases reply <;> rfl
      · rcases known_act_cases _ t' log with hold | ⟨-, hnext⟩
        · exact .inl (hold ▸ hk)
        · rw [hnext] at hk
          cases reply with
          | error err => exact .inl hk
          | ok uri' =>
            obtain ⟨rfl, rfl⟩ := Prod.mk.inj (Option.some.inj hk)
            exact .inr ⟨rfl, hr uri' rfl⟩
    · refine hedit (.refl _) (known_of_next_eq fun q => ?_)
      cases reply with
      | error err => rfl
      | ok uri => exact absurd rfl (hr uri)
  all_goals exact hedit (exec_records hexec rfl) (known_of_next_eq fun _ => rfl)

lemma env_key_records {userId : String} {write : KeyRegistry.KeyWrite}
    (h : ((w.writeKey userId tenantId write).toOption).map Prod.snd = some w') : SameRecords w w' := by
  obtain ⟨⟨u, w''⟩, hw, rfl⟩ := Option.map_eq_some_iff.mp h
  cases hk : w.writeKey userId tenantId write with
  | error err => simp [hk, Except.toOption] at hw
  | ok r =>
    simp only [hk, Except.toOption, Option.some.injEq] at hw
    rw [hw] at hk
    exact writeKey_records hk

lemma env_records {e : Env} (h : e.step w = some w') : SameRecords w w' := by
  cases e with
  | tick ms => cases h; exact .refl w
  | setClock now => cases h; exact .refl w
  | setKey tenantId userId dek =>
    have hk : ((w.writeKey userId tenantId (.set userId dek)).toOption).map Prod.snd = some w' := h
    exact env_key_records hk
  | rotateKey tenantId userId deks activeDekId =>
    have hk : ((w.writeKey userId tenantId (.rotate deks activeDekId)).toOption).map Prod.snd = some w' := h
    exact env_key_records hk
  | addDestination tenantId userId destination =>
    have hk : ((w.writeKey userId tenantId (.addDestination destination)).toOption).map Prod.snd = some w' := h
    exact env_key_records hk
  | serveEntries entries => cases h; exact .refl w
  | declareEntries entries => cases h; exact .refl w

lemma archive_inductive : Inductive publishing Keyed (@retrievable d) Archive where
  act h ha := h.act ha
  env {w w' log e} h hw he hg := by
    have hreq := env_requests he
    refine h.frame (env_records he) (fun _ => rfl) (fun id hs => ?_) (fun id uri request hl => ?_)
      (fun id request hl => ?_)
    · simpa [isStored, hreq] using hs
    · exact h.recorded id uri request (hreq ▸ hl)
    · exact h.issued id request (hreq ▸ hl)

lemma archive_empty (now : Date) : Archive (d := d) (emptyVault now) [] where
  head _ _ hl := by simp [emptyVault] at hl
  linked _ _ hl := by simp [emptyVault] at hl
  owner _ _ _ _ hl := by simp [emptyVault] at hl
  object _ _ hl := by simp [emptyVault] at hl
  chained _ _ _ hk := by simp [known, publishing] at hk
  stored _ _ _ hk := by simp [known, publishing] at hk
  recorded _ _ _ hl := by simp [emptyVault] at hl
  issued _ _ hl := by simp [emptyVault] at hl

end Run

section Walk

variable {w : World} (hb : d.bucketName ≠ "") (hs : '/' ∉ d.bucketName.toList)
include hb hs

lemma Readable.download (h : Readable d id uri w) :
    ∃ stored, w.downloadCertificate d uri = .ok stored ∧ stored.deletionRequestId = id ∧
      ∃ path, w.bucket.lookup path = some stored := by
  obtain ⟨path, stored, rfl, hp, hl, hid⟩ := h
  refine ⟨stored, ?_, hid, path, hl⟩
  rw [World.downloadCertificate, parseGcsPath_uri hb hs, if_pos hp]
  simp [hl]

lemma Archive.lookup (h : Archive w log) (hl : w.chainEntries.lookup hash = some entry)
    (hr : w.deletionRequests.lookup entry.deletionRequestId = some request)
    (hu : request.certificateGcsPath = some uri) :
    ∃ stored, w.getCertificateByHash d hash = .ok (some stored) ∧ d.sha256 stored.certificate = hash ∧
      Chains d entry.deletionRequestId stored.certificate w := by
  obtain ⟨hread, -⟩ := h.recorded _ uri request hr hu
  obtain ⟨stored, hdown, hid, path, hpath⟩ := hread.download hb hs
  have hc := h.object path stored hpath
  have hhash : d.sha256 stored.certificate = hash := by
    obtain ⟨entry', hl', hid', -⟩ := hc
    exact h.owner _ _ entry' entry hl' hl (hid'.trans hid)
  refine ⟨stored, ?_, hhash, hid ▸ hc⟩
  have hne : truthy (some uri) = some uri := by
    obtain ⟨path, stored, rfl, -⟩ := hread
    simp [truthy]
  simp [World.getCertificateByHash, hl, hr, hu, hne, hdown, Except.map]

lemma Archive.lookupsSound (h : Archive w log) : w.LookupsSound d := by
  intro hash
  cases hl : w.chainEntries.lookup hash with
  | none => exact ⟨none, by simp [World.getCertificateByHash, hl], nofun⟩
  | some entry =>
    cases hp : (w.deletionRequests.lookup entry.deletionRequestId).bind (·.certificateGcsPath) with
    | none => exact ⟨none, by simp [World.getCertificateByHash, hl, hp, truthy], nofun⟩
    | some uri =>
      obtain ⟨request, hr, hu⟩ := Option.bind_eq_some_iff.mp hp
      obtain ⟨stored, hfound, hhash, -⟩ := h.lookup hb hs hl hr hu
      refine ⟨some stored, hfound, fun stored' hs' => ?_⟩
      rw [← Option.some.inj hs']
      exact hhash

lemma Archive.walks (h : Archive w log) (hc : Chains d id certificate w) (hid : isStored id w = true) :
    (certificateLinks d).walks (w.lookupCertificate d) certificate.chainSequence certificate = true := by
  refine Links.walks_of_descends (L := certificateLinks d)
    (P := fun certificate => ∃ id, Chains d id certificate w ∧ isStored id w = true) ?_ ⟨id, hc, hid⟩
  rintro certificate ⟨id, ⟨entry, hl, rfl, hprev, hseq⟩, hid⟩
  obtain ⟨request, uri, hr, hu⟩ := isStored_iff.mp hid
  obtain ⟨-, hpre⟩ := h.recorded _ uri request hr hu
  rcases h.linked _ entry hl with ⟨hn, hone⟩ | ⟨hash, previous, hh, hl', hs'⟩
  · exact .inl ⟨hprev.symm.trans hn, hseq.symm.trans hone⟩
  · obtain ⟨previous', hl'', hid'⟩ := hpre _ entry hl rfl hash hh
    obtain rfl := Option.some.inj (hl''.symm.trans hl')
    obtain ⟨request', uri', hr', hu'⟩ := isStored_iff.mp hid'
    obtain ⟨stored, hfound, hhash, hc'⟩ := h.lookup hb hs hl' hr' hu'
    have hlookup : w.lookupCertificate d hash = some stored.certificate := by
      simp [World.lookupCertificate, hfound]
    refine .inr ⟨hash, stored.certificate, hprev.symm.trans hh, hlookup, ⟨_, hc', hid'⟩, ?_⟩
    obtain ⟨entry', he, -, -, hs''⟩ := hc'
    rw [hhash] at he
    obtain rfl := Option.some.inj (he.symm.trans hl')
    show certificate.chainSequence = stored.certificate.chainSequence + 1
    rw [← hseq, hs', hs'']

lemma Archive.chainWalkable (h : Archive w log) : w.ChainWalkable d tenantId := by
  intro request hrequest
  obtain ⟨hmem, hfilter⟩ := List.mem_filter.mp (mem_of_lastIssued hrequest)
  obtain ⟨-, -, hissued⟩ := of_decide_eq_true hfilter
  obtain ⟨id, hr⟩ := mem_requests.mp hmem
  obtain ⟨uri, hu⟩ := Option.isSome_iff_exists.mp ((h.issued id request hr).symm.trans hissued)
  obtain ⟨hread, -⟩ := h.recorded id uri request hr hu
  obtain ⟨stored, hdown, rfl, path, hpath⟩ := hread.download hb hs
  exact ⟨uri, stored, hu, hdown, h.walks hb hs (h.object path stored hpath) (isStored_iff.mpr ⟨request, uri, hr, hu⟩)⟩

end Walk

section Runs

/-- Bob's request takes threads 3 to 5, after ada's. -/
def issuedInTurn : List VaultEvent :=
  certified ++ [.env (.tick 1), .env (.setKey "acme" "bob" [2]), .start (.createRequest "bob" "next" "acme" none)]
    ++ steps 3 3 ++ [.start (.advanceRequest "next" .keyDestroyed "operation")] ++ steps 4 6
    ++ [.start (.advanceRequest "next" .cascadePending "operation")] ++ steps 5 6
    ++ [.act 5 (.done (.findings []))] ++ steps 5 5
    ++ [.act 5 (.done (.text "fingerprint")), .act 5 (.done (.signed "version" "second"))] ++ steps 5 4

/-- The upload fails after the append, and the certificate is issued again. -/
def issuedAgain : List VaultEvent :=
  keyShredded ++ shortcutFound 2 ++ steps 2 3 ++ (issued 2).take 8 ++ [.act 2 .failed] ++ steps 2 1
    ++ [.start (.advanceRequest "request" .certificateIssued "again")] ++ steps 3 2
    ++ [.act 3 (.done (.findings []))] ++ steps 3 5
    ++ [.act 3 (.done (.text "fingerprint")), .act 3 (.done (.signed "version" "second"))] ++ steps 3 4

def latestWalks (d : Deployment) (tenantId : String) (w : World) : Option Bool := do
  let request ← w.getMostRecentCertificateIssuedForTenant tenantId
  let gcsPath ← request.certificateGcsPath
  let stored ← (w.downloadCertificate d gcsPath).toOption
  return (certificateLinks d).walks (w.lookupCertificate d) stored.certificate.chainSequence stored.certificate

lemma latestWalks_of_walkable (h : w.ChainWalkable d tenantId) : latestWalks d tenantId w ≠ some false := by
  intro hf
  cases hr : w.getMostRecentCertificateIssuedForTenant tenantId with
  | none => simp [latestWalks, hr] at hf
  | some request =>
    obtain ⟨gcsPath, stored, hu, hdown, hw⟩ := h request hr
    simp [latestWalks, hr, hu, hdown, Except.toOption, hw] at hf

end Runs

end ChameleonVault.Deletion
