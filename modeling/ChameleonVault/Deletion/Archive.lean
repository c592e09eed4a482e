import ChameleonVault.Deletion.Publications

/-! The invariant of the stored certificates: each can be read under its URI and its hash, and its chain goes
on from one that can. -/

namespace ChameleonVault.Deletion

open Collections Concurrency Interleaving Discipline Call DeletionRequestService HashChain
open CertificateChain (certificateLinks core SameEntries core_eq)
open KeyRegistry (Date truthy)

variable {d : Deployment} {w w' : World} {log : (vault d).Log} {a : (vault d).Action}
  {tenantId id path uri hash : String} {request : DeletionRequest} {certificate : Certificate}
  {entry : CertificateChainEntry}

section Archive

def Chains (d : Deployment) (id : String) (certificate : Certificate) (w : World) : Prop :=
  ∃ entry, w.chainEntries.lookup (d.sha256 certificate) = some entry ∧ entry.deletionRequestId = id ∧
    entry.previousHash = certificate.previousCertificateHash ∧ entry.sequence = certificate.chainSequence

def Readable (d : Deployment) (id uri : String) (w : World) : Prop :=
  ∃ path stored, uri = "gs://" ++ d.bucketName ++ "/" ++ path ∧ OneLine path ∧
    w.bucket.lookup path = some stored ∧ stored.deletionRequestId = id

def Linked (w : World) (entry : CertificateChainEntry) : Prop :=
  entry.previousHash = none ∧ entry.sequence = 1 ∨
    ∃ hash previous, entry.previousHash = some hash ∧ w.chainEntries.lookup hash = some previous ∧
      entry.sequence = previous.sequence + 1

def Preceded (id : String) (w : World) : Prop :=
  ∀ hash entry, w.chainEntries.lookup hash = some entry → entry.deletionRequestId = id →
    ∀ hash', entry.previousHash = some hash' → ∃ previous, w.chainEntries.lookup hash' = some previous ∧
      isStored previous.deletionRequestId w = true

lemma isStored_iff : isStored id w = true ↔ ∃ request uri, w.deletionRequests.lookup id = some request ∧
    request.certificateGcsPath = some uri := by
  simp [isStored, Option.isSome_iff_exists, Option.bind_eq_some_iff, exists_comm]

lemma hasEntry_iff :
    hasEntry id w = true ↔ ∃ hash entry, w.chainEntries.lookup hash = some entry ∧ entry.deletionRequestId = id := by
  simp only [hasEntry, List.any_eq_true, decide_eq_true_eq]
  constructor
  · rintro ⟨⟨hash, entry⟩, hm, he⟩
    exact ⟨hash, entry, AList.mem_lookup_iff.mpr hm, he⟩
  · rintro ⟨hash, entry, hl, he⟩
    exact ⟨⟨hash, entry⟩, AList.mem_lookup_iff.mp hl, he⟩

lemma preceded_of_precedingStored (h : precedingStored id w = true) : Preceded id w := by
  intro hash entry hl hid hash' hp
  have he := List.all_eq_true.mp h ⟨hash, entry⟩ (AList.mem_lookup_iff.mp hl)
  simpa [hid, hp, Option.any_eq_true] using he

structure Archive (w : World) (log : (vault d).Log) : Prop where
  head (document : DocumentPath) (state : CertificateChainState) : w.certificateChain.lookup document = some state →
    ∃ hash entry, state.lastHash = some hash ∧ w.chainEntries.lookup hash = some entry ∧
      entry.sequence = state.sequence
  linked (hash : String) (entry : CertificateChainEntry) : w.chainEntries.lookup hash = some entry → Linked w entry
  owner (hash hash' : String) (entry entry' : CertificateChainEntry) : w.chainEntries.lookup hash = some entry →
    w.chainEntries.lookup hash' = some entry' → entry.deletionRequestId = entry'.deletionRequestId → hash = hash'
  object (path : String) (stored : StoredCertificate) : w.bucket.lookup path = some stored →
    Chains d stored.deletionRequestId stored.certificate w
  chained (t : ℕ) (id : String) (certificate : Certificate) :
    (publishing.known t log).chained = some (id, certificate) → Chains d id certificate w
  stored (t : ℕ) (id uri : String) : (publishing.known t log).stored = some (id, uri) → Readable d id uri w
  recorded (id uri : String) (request : DeletionRequest) : w.deletionRequests.lookup id = some request →
    request.certificateGcsPath = some uri → Readable d id uri w ∧ Preceded id w
  issued (id : String) (request : DeletionRequest) : w.deletionRequests.lookup id = some request →
    request.certificateIssuedAt.isSome = request.certificateGcsPath.isSome

variable {guard : (vault d).Guard}

/-- What no step takes away. -/
structure Grows (w w' : World) : Prop where
  entries (hash : String) (entry : CertificateChainEntry) : w.chainEntries.lookup hash = some entry →
    ∃ entry', w'.chainEntries.lookup hash = some entry' ∧ core entry' = core entry
  objects (path : String) (stored : StoredCertificate) : w.bucket.lookup path = some stored →
    ∃ stored', w'.bucket.lookup path = some stored' ∧ stored'.deletionRequestId = stored.deletionRequestId
  stored (id : String) : isStored id w = true → isStored id w' = true

lemma Chains.grows (h : Chains d id certificate w) (hg : Grows w w') : Chains d id certificate w' := by
  obtain ⟨entry, hl, rfl, hp, hs⟩ := h
  obtain ⟨entry', hl', hcore⟩ := hg.entries _ entry hl
  obtain ⟨-, hs', hp', hid'⟩ := core_eq hcore
  exact ⟨entry', hl', hid', hp'.trans hp, hs'.trans hs⟩

lemma Readable.grows (h : Readable d id uri w) (hg : Grows w w') : Readable d id uri w' := by
  obtain ⟨path, stored, huri, hp, hl, rfl⟩ := h
  obtain ⟨stored', hl', hid⟩ := hg.objects path stored hl
  exact ⟨path, stored', huri, hp, hl', hid⟩

lemma Linked.grows (h : Linked w entry) (hg : Grows w w') {entry' : CertificateChainEntry}
    (hcore : core entry' = core entry) : Linked w' entry' := by
  obtain ⟨-, hs, hp, -⟩ := core_eq hcore
  rcases h with ⟨hn, hone⟩ | ⟨hash, previous, hh, hl, hseq⟩
  · exact .inl ⟨hp.trans hn, hs.trans hone⟩
  · obtain ⟨previous', hl', hcore'⟩ := hg.entries hash previous hl
    refine .inr ⟨hash, previous', hp.trans hh, hl', ?_⟩
    rw [hs, hseq, (core_eq hcore').2.1]

lemma Preceded.grows (h : Preceded id w) (hg : Grows w w')
    (hback : ∀ hash entry', w'.chainEntries.lookup hash = some entry' → entry'.deletionRequestId = id →
      ∃ entry, w.chainEntries.lookup hash = some entry ∧ core entry = core entry') : Preceded id w' := by
  intro hash entry' hl hid hash' hp
  obtain ⟨entry, hl', hcore⟩ := hback hash entry' hl hid
  obtain ⟨-, -, hp', hid'⟩ := core_eq hcore
  obtain ⟨previous, hprev, hs⟩ := h hash entry hl' (hid'.trans hid) hash' (hp'.trans hp)
  obtain ⟨previous', hprev', hcore'⟩ := hg.entries hash' previous hprev
  refine ⟨previous', hprev', hg.stored _ ?_⟩
  rw [(core_eq hcore').2.2.2]
  exact hs

lemma Archive.hasEntry_of_readable (h : Archive w log) (hr : Readable d id uri w) : hasEntry id w = true := by
  obtain ⟨path, stored, -, -, hl, rfl⟩ := hr
  obtain ⟨entry, he, hid, -⟩ := h.object path stored hl
  exact hasEntry_iff.mpr ⟨_, entry, he, hid⟩

end Archive

section Records

def SameRecords (w w' : World) : Prop :=
  w'.certificateChain = w.certificateChain ∧ SameEntries w w' ∧ w'.bucket = w.bucket

lemma SameRecords.refl (w : World) : SameRecords w w := ⟨rfl, fun _ => rfl, rfl⟩

lemma updateRequest_records {missing : String} {f : DeletionRequest → DeletionRequest} {u : Unit}
    (h : w.updateRequest id missing f = .ok (u, w')) : SameRecords w w' := by
  simp only [World.updateRequest] at h
  split at h
  · contradiction
  · obtain ⟨-, rfl⟩ := Prod.mk.inj (Except.ok.inj h)
    exact .refl w

lemma updateEntry_records {f : CertificateChainEntry → CertificateChainEntry} {u : Unit}
    (h : w.updateEntry hash f = .ok (u, w')) (hf : ∀ entry, core (f entry) = core entry) : SameRecords w w' := by
  simp only [World.updateEntry] at h
  split at h
  · contradiction
  · rename_i entry hl
    obtain ⟨-, rfl⟩ := Prod.mk.inj (Except.ok.inj h)
    refine ⟨rfl, fun hash' => ?_, rfl⟩
    by_cases hh : hash' = hash
    · subst hh
      rw [AList.lookup_insert, hl, Option.map_some, Option.map_some, hf]
    · rw [AList.lookup_insert_ne hh]

lemma writeKey_records {userId : String} {write : KeyRegistry.KeyWrite} {u : Unit}
    (h : w.writeKey userId tenantId write = .ok (u, w')) : SameRecords w w' := by
  simp only [World.writeKey, bind, Except.bind] at h
  split at h
  · contradiction
  · obtain ⟨-, rfl⟩ := Prod.mk.inj (Except.ok.inj h)
    exact .refl w

def Op.isPublishing : Op → Bool
  | .appendToChain _ _ _ => true
  | .uploadCertificate _ _ _ _ _ _ => true
  | _ => false

lemma run_records {op : Op} {answer : Answer} {r : op.Res} (h : op.run d answer w = some (.ok (r, w')))
    (hp : op.isPublishing = false) : SameRecords w w' := by
  cases op
  case createDeletionRequest =>
    obtain ⟨-, rfl⟩ := Prod.mk.inj (Except.ok.inj (Option.some.inj h))
    split <;> exact .refl w
  case claimTransition =>
    rcases claimTransition_cases (Option.some.inj h) with ⟨request, -, -, -, rfl⟩ | ⟨current, -, rfl⟩ <;> exact .refl _
  case updateDeletionRequestStatus => exact updateRequest_records (Option.some.inj h)
  case updateDeletionRequestFields =>
    rcases updateDeletionRequestFields_cases (Option.some.inj h) with ⟨-, rfl⟩ | hu
    · exact .refl _
    · exact updateRequest_records hu
  case updateJanitorWipeStatus => exact updateRequest_records (Option.some.inj h)
  case shredKeyForUser => exact writeKey_records (Option.some.inj h)
  case recordTsaTimestamp => exact updateEntry_records (Option.some.inj h) (fun _ => rfl)
  case recordRekorEntry => exact updateEntry_records (Option.some.inj h) (fun _ => rfl)
  case appendToChain => contradiction
  case uploadCertificate => contradiction
  case wipe =>
    cases answer <;> try contradiction
    rename_i found result
    cases result with
    | error e => cases h
    | ok result =>
      simp only [Op.run] at h
      split at h
      · cases h
        exact .refl w
      · contradiction
  case runQuery =>
    cases answer <;> try contradiction
    rename_i affected failure
    cases failure <;> cases h
    exact .refl w
  all_goals cases answer <;> cases h <;> exact .refl _

lemma exec_records {op : Op} {choice : Outcome} {reply : Except String op.Res}
    (h : op.exec d choice w = some (reply, w')) (hp : op.isPublishing = false) : SameRecords w w' := by
  rcases exec_cases h with ⟨-, answer, r, hr, -⟩ | ⟨-, rfl⟩
  · exact run_records hr hp
  · exact .refl _

end Records

section Steps

variable {guard : (vault d).Guard}

lemma Archive.frame (h : Archive w log) (hs : SameRecords w w') {e : (vault d).Entry}
    (hknown : ∀ t, publishing.known t (e :: log) = publishing.known t log)
    (hstored : ∀ id, isStored id w = true → isStored id w' = true)
    (hrecorded : ∀ id uri request, w'.deletionRequests.lookup id = some request →
      request.certificateGcsPath = some uri → Readable d id uri w ∧ Preceded id w)
    (hissued : ∀ id request, w'.deletionRequests.lookup id = some request →
      request.certificateIssuedAt.isSome = request.certificateGcsPath.isSome) : Archive w' (e :: log) := by
  obtain ⟨hchain, hentries, hbucket⟩ := hs
  have hg : Grows w w' := by
    refine ⟨fun hash entry hl => hentries.forward hl, fun path stored hl => ?_, hstored⟩
    exact ⟨stored, hbucket ▸ hl, rfl⟩
  have hback {hash : String} {entry : CertificateChainEntry} (hl : w'.chainEntries.lookup hash = some entry) :
      ∃ entry', w.chainEntries.lookup hash = some entry' ∧ core entry' = core entry := hentries.symm.forward hl
  refine ⟨fun document state hl => ?_, fun hash entry hl => ?_, fun hash hash' entry entry' hl hl' hid => ?_,
    fun path stored hl => ?_, fun t id certificate hk => ?_, fun t id uri hk => ?_, fun id uri request hl hp => ?_,
    hissued⟩
  · obtain ⟨hash, entry, hlast, hentry, hseq⟩ := h.head document state (hchain ▸ hl)
    obtain ⟨entry', hentry', hcore⟩ := hg.entries hash entry hentry
    exact ⟨hash, entry', hlast, hentry', (core_eq hcore).2.1.trans hseq⟩
  · obtain ⟨entry', hl', hcore⟩ := hback hl
    exact (h.linked hash entry' hl').grows hg hcore.symm
  · obtain ⟨earlier, hearlier, hcore⟩ := hback hl
    obtain ⟨earlier', hearlier', hcore'⟩ := hback hl'
    refine h.owner hash hash' earlier earlier' hearlier hearlier' ?_
    rw [(core_eq hcore).2.2.2, (core_eq hcore').2.2.2, hid]
  · exact (h.object path stored (hbucket ▸ hl)).grows hg
  · exact (h.chained t id certificate (hknown t ▸ hk)).grows hg
  · exact (h.stored t id uri (hknown t ▸ hk)).grows hg
  · obtain ⟨hr, hpre⟩ := hrecorded id uri request hl hp
    exact ⟨hr.grows hg, hpre.grows hg fun hash entry hl _ => hback hl⟩

def Recorded (d : Deployment) (id : String) (request : DeletionRequest) (w : World) : Prop :=
  (∀ uri, request.certificateGcsPath = some uri → Readable d id uri w ∧ Preceded id w) ∧
    request.certificateIssuedAt.isSome = request.certificateGcsPath.isSome

lemma Archive.recorded_same (h : Archive w log) {earlier : DeletionRequest}
    (hn : w.deletionRequests.lookup id = some earlier)
    (hp : request.certificateGcsPath = earlier.certificateGcsPath)
    (hi : request.certificateIssuedAt = earlier.certificateIssuedAt) : Recorded d id request w := by
  rw [Recorded, hp, hi]
  exact ⟨fun uri => h.recorded id uri earlier hn, h.issued id earlier hn⟩

lemma Archive.recorded_attach (h : Archive w log) (ha : Allowed publishing Keyed (@retrievable d) w log a w')
    {earlier : DeletionRequest} (hn : w.deletionRequests.lookup id = some earlier) {fields : UpdateFields}
    (hc : changeOf id (.act a) = some (.attach fields)) : Recorded d id (earlier.writeFields fields) w := by
  obtain ⟨hedit, htook⟩ := changeOf_edit hc
  have hallowed := ha.allowed
  have hguard := ha.guard.2.2
  obtain ⟨t, op, choice, reply⟩ := a
  cases op <;> cases hedit
  obtain ⟨hboth, hstored⟩ := hallowed
  cases hp : fields.certificateGcsPath with
  | none =>
    have hi : fields.certificateIssuedAt = none := Option.not_isSome_iff_eq_none.mp (by simp [hboth, hp])
    exact h.recorded_same hn (by simp [DeletionRequest.writeFields, hp]) (by simp [DeletionRequest.writeFields, hi])
  | some uri =>
    obtain ⟨now, hi⟩ : ∃ now, fields.certificateIssuedAt = some now :=
      Option.isSome_iff_exists.mp (by rw [hboth, hp]; rfl)
    have hpre : precedingStored id w = true := by
      simp only [recordsInOrder, hp] at hguard
      simpa [htook] using hguard
    simp only [Recorded, DeletionRequest.writeFields, hp, hi]
    refine ⟨fun uri' hu => ?_, rfl⟩
    rw [← Option.some.inj hu]
    exact ⟨h.stored t id uri (hstored uri hp), preceded_of_precedingStored hpre⟩

lemma Archive.recorded_after (h : Archive w log) (ha : Allowed publishing Keyed (@retrievable d) w log a w')
    (hl : w'.deletionRequests.lookup id = some request) : Recorded d id request w := by
  cases hn : w.deletionRequests.lookup id with
  | none =>
    obtain ⟨-, userId, tenantId, requestedBy, -, rfl⟩ := exec_created ha.exec hn hl
    exact ⟨nofun, rfl⟩
  | some earlier =>
    rw [exec_lookup ha.exec hn] at hl
    obtain rfl := Option.some.inj hl
    cases hc : changeOf id (.act a) with
    | none => exact h.recorded_same hn rfl rfl
    | some c =>
      cases c with
      | status newStatus => exact h.recorded_same hn rfl rfl
      | wipe destination status details => exact h.recorded_same hn rfl rfl
      | attach fields => exact h.recorded_attach ha hn hc

lemma isStored_after (he : Op.exec d a.op a.choice w = some (a.reply, w')) (hs : isStored id w = true) :
    isStored id w' = true := by
  simp only [isStored, Option.isSome_bind, Option.any_eq_true] at hs ⊢
  obtain ⟨request, hl, hp⟩ := hs
  refine ⟨_, exec_lookup he hl, ?_⟩
  cases changeOf id (.act a) with
  | none => exact hp
  | some c =>
    cases c with
    | status newStatus => exact hp
    | wipe destination status details => exact hp
    | attach fields =>
      simp only [Change.after, Change.apply, DeletionRequest.writeFields]
      cases fields.certificateGcsPath with
      | none => exact hp
      | some uri => rfl

lemma Archive.edit (h : Archive w log) (ha : Allowed publishing Keyed (@retrievable d) w log a w')
    (hs : SameRecords w w') (hknown : ∀ t, publishing.known t (.act a :: log) = publishing.known t log) :
    Archive w' (.act a :: log) :=
  h.frame hs hknown (fun _ => isStored_after ha.exec) (fun _ uri _ hl => (h.recorded_after ha hl).1 uri)
    (fun _ _ hl => (h.recorded_after ha hl).2)

lemma appendToChain_cases {claims : Claims} {choice : Outcome} {reply : Except String ChainedCertificate}
    (h : (Op.appendToChain tenantId id claims).exec d choice w = some (reply, w')) :
    (∃ keyVersion signature, choice.signature = some (keyVersion, signature) ∧
      w' = (w.appendToChain d tenantId id claims keyVersion signature).2 ∧
      ∀ chained, reply = .ok chained → chained = (w.appendToChain d tenantId id claims keyVersion signature).1) ∨
    (w' = w ∧ ∀ chained, reply ≠ .ok chained) := by
  rcases choice with answer | _ | answer
  · cases answer <;> cases h
    exact .inl ⟨_, _, rfl, rfl, fun chained hr => (Except.ok.inj hr).symm⟩
  · cases h
    exact .inr ⟨rfl, nofun⟩
  · cases answer <;> cases h
    exact .inl ⟨_, _, rfl, rfl, nofun⟩

lemma uploadCertificate_cases {userId : String} {chained : ChainedCertificate} {tsaTimestamp : Option TsaTimestampInfo}
    {rekorEntry : Option RekorLogEntryInfo} {choice : Outcome} {reply : Except String String}
    (h : (Op.uploadCertificate userId id chained tenantId tsaTimestamp rekorEntry).exec d choice w =
      some (reply, w')) :
    ((Op.uploadCertificate userId id chained tenantId tsaTimestamp rekorEntry).tookEffect choice reply = true ∧
      w' = (w.uploadCertificate d userId id chained tenantId tsaTimestamp rekorEntry).2 ∧
      ∀ uri, reply = .ok uri → uri = (w.uploadCertificate d userId id chained tenantId tsaTimestamp rekorEntry).1) ∨
    (w' = w ∧ ∀ uri, reply ≠ .ok uri) := by
  rcases choice with answer | _ | answer
  · cases h
    exact .inl ⟨rfl, rfl, fun uri hr => (Except.ok.inj hr).symm⟩
  · cases h
    exact .inr ⟨rfl, nofun⟩
  · cases h
    exact .inl ⟨rfl, rfl, nofun⟩

end Steps

end ChameleonVault.Deletion
