import ChameleonVault.Evidence.Publication

/-! What the transparency logs hold bears out what is stored with the certificates, in every run. -/

namespace ChameleonVault.Evidence

open Concurrency Interleaving Discipline Call Encoding
open Encoding.Json (ofNat)
open KeyRegistry (truthy)

variable {d : Deployment} {sha256 : Sha256} {w w' : World} {url path : String} {bytes : List UInt8} {entry : LogEntry}
  {log : (publications d).Log} {wrapper : CertificateWrapper} {info : RekorLogEntryInfo}

section Entries

lemma body_ne_empty {recorded : String × String} (he : entry.recorded = some recorded) : entry.body ≠ "" := by
  intro hb
  rw [LogEntry.recorded, hb] at he
  contradiction

lemma LogEntry.member_body (entry : LogEntry) :
    entry.toJson.member? "body" = some (.string (base64 (Utf8.encode entry.body.toList))) := by
  have hrest : (Json.object (entry.more.filter fun f => f.1 ≠ "logIndex" ∧ f.1 ≠ "body")).member? "body" = none := by
    refine Json.member_eq_none fun f hf => ?_
    have hname := (List.mem_filter.mp hf).2
    simp only [ne_eq, decide_eq_true_eq] at hname
    exact hname.2
  rw [toJson, Json.member_object_cons, Json.member_object_cons, hrest]
  rfl

lemma LogEntry.member_logIndex (entry : LogEntry) : entry.toJson.member? "logIndex" = some (ofNat entry.logIndex) := by
  have hrest : (Json.object (entry.more.filter fun f => f.1 ≠ "logIndex" ∧ f.1 ≠ "body")).member? "logIndex" = none := by
    refine Json.member_eq_none fun f hf => ?_
    have hname := (List.mem_filter.mp hf).2
    simp only [ne_eq, decide_eq_true_eq] at hname
    exact hname.1
  rw [toJson, Json.member_object_cons, Json.member_object_cons, hrest]
  rfl

/-- However the answer is keyed, the check accepts the SHA-256 digest that the entry holds, and no other one. -/
lemma checkResponse_entry {digest algorithm value entryUuid key : String} (he : entry.recorded = some (algorithm, value))
    (hd : digest ≠ "") : checkResponse digest entryUuid (.answered 200 (.object [(key, entry.toJson)])) = .ok () ↔
      algorithm = "sha256" ∧ value = digest := by
  have hbytes : Utf8.encode entry.body.toList ≠ [] := by
    intro h
    have hback := Utf8.decode_encode entry.body.toList
    rw [h] at hback
    exact body_ne_empty he (String.toList_eq_nil_iff.mp hback.symm)
  have htruthy : Json.isTruthy (.string (base64 (Utf8.encode entry.body.toList))) = true := by
    rw [Json.isTruthy, base64, decide_eq_true_eq]
    intro h
    exact Base64.encode_ne_nil hbytes (by simpa using congrArg String.toList h)
  have hbody : truthyField (some entry.toJson) "body" = some (.string (base64 (Utf8.encode entry.body.toList))) := by
    rw [truthyField, Option.bind_some, entry.member_body]
    simp [Option.filter, htruthy]
  obtain ⟨stored, hstored, hrecorded⟩ := Option.bind_eq_some_iff.mp he
  have hne : entry.toJson ≠ .null := by simp [LogEntry.toJson]
  have hread : Json.parse (String.ofList (Utf8.decode (Base64.decode (base64 (Utf8.encode entry.body.toList)).toList))) =
      some stored := by
    rw [base64, String.toList_ofList, Base64.decode_encode, Utf8.decode_encode, String.ofList_toList, hstored]
  simp only [checkResponse, ne_eq, not_true_eq_false, if_false, findEntry_single hne, hbody, checkBody, hread]
  exact checkHash_ok_iff hrecorded hd

/-- The log could not be asked, or had no such answer. -/
def InvalidReason.isUnanswered : InvalidReason → Bool
  | .lookupStatus _ _ => true
  | .thrown (.request _) => true
  | _ => false

lemma checkResponse_unanswered (digest entryUuid : String) {r : Response} (h : ∀ data, r ≠ .answered 200 data) :
    ∃ reason, checkResponse digest entryUuid r = .error reason ∧ reason.isUnanswered = true := by
  cases r with
  | failed message => exact ⟨_, rfl, rfl⟩
  | answered status data =>
    have hs : status ≠ 200 := by
      rintro rfl
      exact h data rfl
    exact ⟨_, if_pos hs, rfl⟩

end Entries

section Growth

lemma mem_enter {other : LogEntry} {url' : String} (h : other ∈ w.logs url') : other ∈ (w.enter url entry).logs url' := by
  simp only [World.enter]
  split
  · rename_i heq
    exact List.mem_cons_of_mem entry (heq ▸ h)
  · exact h

lemma mem_enter_self : entry ∈ (w.enter url entry).logs url := by simp [World.enter]

lemma mem_enter_cases {other : LogEntry} {url' : String} (h : other ∈ (w.enter url entry).logs url') :
    other ∈ w.logs url' ∨ url' = url ∧ other = entry := by
  simp only [World.enter] at h
  split at h
  · rename_i heq
    rcases List.mem_cons.mp h with rfl | h
    · exact .inr ⟨heq, rfl⟩
    · exact .inl (heq ▸ h)
  · exact .inl h

/-- The logs hold at least what they held. -/
def Grown (w w' : World) : Prop := ∀ url entry, entry ∈ w.logs url → entry ∈ w'.logs url

lemma Grown.refl (w : World) : Grown w w := fun _ _ h => h

lemma Grown.enter (w : World) (url : String) (entry : LogEntry) : Grown w (w.enter url entry) := fun _ _ h => mem_enter h

end Growth

section Receipts

/-- A submission that was answered with 201: where to, what, and with what. -/
abbrev Receipt := String × Json × Json

def nextReceipt (q : Option Receipt) : (op : Op) → Except String op.Res → Option Receipt
  | .post url proposal, .ok (status, data) => if status = 201 then some (url, proposal, data) else q
  | _, _ => q

/-- What is said to be published was answered so, and holds the digest of the pair. -/
def Receipted (sha256 : Sha256) (q : Option Receipt) (hash : String) (previousHash : Option String)
    (info : RekorLogEntryInfo) : Prop :=
  info.status = .published → ∃ proposal data names attemptedAt, q = some (info.rekorUrl, proposal, data) ∧
    data.keys = some names ∧ info = publishedEntry info.rekorUrl attemptedAt data names ∧
    recordedHash proposal = some ("sha256", sha256.hex (payload hash previousHash))

def isWrapperPath (path : String) : Bool := ".json".toList.isSuffixOf path.toList

def Op.mayFollow (sha256 : Sha256) (q : Option Receipt) : Op → Prop
  | .save path bytes => isWrapperPath path = true → ∃ w : CertificateWrapper, bytes = w.bytes ∧
      ∀ info, w.rekorEntry = some info → Receipted sha256 q w.hash w.previousCertificateHash info
  | _ => True

def receipts (sha256 : Sha256) : Discipline Op (fun op => Except String op.Res) (Option Receipt) where
  start := none
  allowed := Op.mayFollow sha256
  next := nextReceipt
  possible _ _ := True

variable {q : Option Receipt} {i : Chained} {hash : String} {previousHash : Option String}

lemma receipted_failed (rekorUrl attemptedAt error : String) :
    Receipted sha256 q hash previousHash (failedEntry rekorUrl attemptedAt error) := fun h => by cases h

/-- All but the submission and the upload. -/
def Op.isQuiet : Op → Bool
  | .post _ _ => false
  | .save _ _ => false
  | _ => true

lemma quiet_neutral {op : Op} (h : op.isQuiet = true) : (receipts sha256).Neutral op := by
  intro q
  cases op
  case post => contradiction
  case save => contradiction
  all_goals exact ⟨trivial, fun _ => rfl⟩

lemma quiet_keeps {α : Type} {op : Op} {f : op.Res → Service α} {ok : α → Option Receipt → Prop} (h : op.isQuiet = true)
    (hf : ∀ a, (receipts sha256).Keeps q (f a) ok fun _ _ => True) :
    (receipts sha256).Keeps q (perform op >>= f) ok fun _ _ => True :=
  .bind (.neutral (uses_perform (quiet_neutral h)) hf fun _ => trivial)

lemma submit_keeps (rekorUrl attemptedAt : String) : (receipts sha256).Keeps q
    (submit sha256 rekorUrl attemptedAt hash previousHash) (fun info q => Receipted sha256 q hash previousHash info)
    (fun _ _ => True) := by
  refine quiet_keeps rfl fun keyVersionPath => quiet_keeps rfl fun signature => quiet_keeps rfl fun publicKeyPem => ?_
  refine .bind (.perform trivial ?_ fun _ _ => trivial)
  rintro ⟨status, data⟩ -
  by_cases hs : status = 201
  · simp only [hs, ne_eq, not_true_eq_false, if_false]
    cases hk : data.keys with
    | none => exact .throw trivial
    | some names =>
      refine .pure fun _ => ⟨_, data, names, attemptedAt, ?_, hk, rfl, recordedHash_proposal signature publicKeyPem _⟩
      simp only [receipts, nextReceipt, if_true, publishedEntry]
  · simp only [ne_eq, hs, not_false_eq_true, if_true]
    exact .pure (receipted_failed rekorUrl attemptedAt _)

lemma publishCertificateHash_keeps (rekorUrl : String) : (receipts sha256).Keeps q
    (publishCertificateHash sha256 rekorUrl hash previousHash)
    (fun info q => Receipted sha256 q hash previousHash info) (fun _ _ => True) := by
  refine quiet_keeps rfl fun now => .tryCatch ?_
  exact (submit_keeps rekorUrl _).mono (fun _ _ h => h) fun error _ _ => .pure (receipted_failed rekorUrl _ error)

lemma timestamp_neutral : (timestamp d hash).run.Uses (receipts sha256).Neutral := by
  rw [timestamp]
  split
  · exact uses_bind (uses_perform (quiet_neutral rfl)) fun info =>
      uses_bind (uses_quietly (uses_perform (quiet_neutral rfl))) fun _ => uses_pure _
  · exact uses_pure _

lemma publish_keeps : (receipts d.sha256).Keeps q (publish d hash previousHash)
    (fun entry q => ∀ info, entry = some info → Receipted d.sha256 q hash previousHash info) (fun _ _ => True) := by
  rw [publish]
  split
  · rename_i rekorUrl hrekor
    refine .bind ((publishCertificateHash_keeps rekorUrl).mono (fun info q hinfo => ?_) fun _ _ h => h)
    refine .bind (.neutral (uses_quietly (uses_perform (quiet_neutral rfl))) (fun _ => .pure ?_) fun _ => trivial)
    rintro _ ⟨⟩
    exact hinfo
  · refine .pure ?_
    rintro _ ⟨⟩

lemma text_not_wrapper (s : String) : isWrapperPath (s ++ ".txt") = false := by
  rw [isWrapperPath, Bool.eq_false_iff]
  intro h
  obtain ⟨cs, hcs⟩ := List.isSuffixOf_iff_suffix.mp h
  have hjson : ".json".toList = ['.', 'j', 's', 'o', 'n'] := rfl
  have htxt : ".txt".toList = ['.', 't', 'x', 't'] := rfl
  rw [String.toList_append, hjson, htxt] at hcs
  have hlast := congrArg List.getLast? hcs
  simp at hlast

lemma hashPath_not_wrapper (i : Chained) (now : ℕ) : isWrapperPath (hashPath i now) = false := text_not_wrapper _

lemma store_keeps (i : Chained) : (receipts d.sha256).Keeps q (store d i) (fun _ _ => True) (fun _ _ => True) := by
  refine .bind (.neutral timestamp_neutral (fun tsaTimestamp => ?_) fun _ => trivial)
  refine .bind (publish_keeps.mono (fun rekorEntry q hentry => ?_) fun _ _ h => h)
  refine quiet_keeps rfl fun now => ?_
  refine .bind (.perform (fun _ => ⟨certPayload i now tsaTimestamp rekorEntry, rfl, hentry⟩) (fun _ _ => ?_) fun _ _ => trivial)
  have hother (q : Option Receipt) : (receipts d.sha256).allowed q (.save (hashPath i now) (Utf8.encode i.certificateHash.toList)) :=
    fun h => absurd ((hashPath_not_wrapper i now).symm.trans h) Bool.false_ne_true
  exact .bind (.perform (hother _) (fun _ _ => .pure trivial) fun _ _ => trivial)

lemma receipts_governs (d : Deployment) : Governs (S := publications d) (receipts d.sha256) (fun _ => True) where
  body i := by
    refine .bind (Follows.mono (store_keeps i) ?_)
    exact fun _ _ _ => trivial
  exec _ _ := ⟨trivial, trivial⟩
  env _ _ := trivial

end Receipts

section Runs

/-- Somebody, the vault or another, submitted the proposal to the log. -/
def submits (url : String) (proposal : Json) : (publications d).Entry → Prop
  | .act ⟨_, .post url' proposal', _, _⟩ => url' = url ∧ proposal' = proposal
  | .env (.submit url' proposal' _) => url' = url ∧ proposal' = proposal
  | _ => False

def Submitted (log : (publications d).Log) (url : String) (proposal : Json) : Prop :=
  ∃ e ∈ log, submits url proposal e

def Evidenced (sha256 : Sha256) (w : World) (wrapper : CertificateWrapper) : Prop :=
  ∀ info, wrapper.rekorEntry = some info → info.status = .published → ∃ entry ∈ w.logs info.rekorUrl,
    info.entryUuid = some entry.uuid ∧ info.logIndex = some (ofNat entry.logIndex) ∧
    entry.recorded = some ("sha256", sha256.hex (payload wrapper.hash wrapper.previousCertificateHash))

structure Evident (w : World) (log : (publications d).Log) : Prop where
  entered (url : String) (entry : LogEntry) : entry ∈ w.logs url → entry.uuid ≠ "" ∧
    ∃ proposal recorded, Submitted log url proposal ∧ recordedHash proposal = some recorded ∧ entry.recorded = some recorded
  distinct (url : String) (entry entry' : LogEntry) : entry ∈ w.logs url → entry' ∈ w.logs url →
    entry.uuid = entry'.uuid → entry = entry'
  receipt (t : ℕ) (url : String) (proposal data : Json) :
    (receipts d.sha256).known t log = some (url, proposal, data) →
    ∃ entry ∈ w.logs url, data = .object [(entry.uuid, entry.toJson)] ∧ entry.recorded = recordedHash proposal
  stored (path : String) (bytes : List UInt8) : w.bucket.lookup path = some bytes → isWrapperPath path = true →
    ∃ wrapper : CertificateWrapper, bytes = wrapper.bytes ∧ Evidenced d.sha256 w wrapper

variable {e : (publications d).Entry} {a : (publications d).Action} {proposal : Json}

lemma Submitted.cons (h : Submitted log url proposal) (e : (publications d).Entry) : Submitted (e :: log) url proposal := by
  obtain ⟨e', he, hs⟩ := h
  exact ⟨e', List.mem_cons_of_mem e he, hs⟩

lemma Evidenced.grown (h : Evidenced sha256 w wrapper) (hg : Grown w w') : Evidenced sha256 w' wrapper := by
  intro info hinfo hstatus
  obtain ⟨entry, hentry, hrest⟩ := h info hinfo hstatus
  exact ⟨entry, hg _ _ hentry, hrest⟩

lemma Evident.evidenced {q : Option Receipt} (h : Evident w log) (hq : ∃ t, (receipts d.sha256).known t log = q)
    (hw : ∀ info, wrapper.rekorEntry = some info →
      Receipted d.sha256 q wrapper.hash wrapper.previousCertificateHash info) : Evidenced d.sha256 w wrapper := by
  intro info hinfo hstatus
  obtain ⟨proposal, data, names, attemptedAt, rfl, hkeys, hpublished, hrecorded⟩ := hw info hinfo hstatus
  obtain ⟨t, ht⟩ := hq
  obtain ⟨entry, hentry, rfl, hkept⟩ := h.receipt t _ _ _ ht
  have huuid := (h.entered _ entry hentry).1
  rw [Json.keys_single] at hkeys
  obtain rfl := Option.some.inj hkeys
  refine ⟨entry, hentry, ?_, ?_, hkept.trans hrecorded⟩
  · rw [hpublished]
    rfl
  · have htruthy : truthy ([entry.uuid].head?) = some entry.uuid :=
      KeyRegistry.truthy_eq_some_iff.mpr ⟨rfl, huuid⟩
    rw [hpublished, publishedEntry, htruthy, Option.bind_some, Json.member_single, Option.bind_some, entry.member_logIndex]

/-- All that an operation can do: make an entry, perhaps with a receipt, save a file, or nothing. -/
lemma exec_effect {op : Op} {answer : Answer} {r : Except String op.Res} (h : op.exec answer w = some (r, w')) :
    (w' = w ∧ ∀ q, nextReceipt q op r = q) ∨
    (∃ url proposal entry, op = .post url proposal ∧ w.accepts url proposal entry = true ∧ w' = w.enter url entry ∧
      ∀ q, nextReceipt q op r = q ∨
        nextReceipt q op r = some (url, proposal, .object [(entry.uuid, entry.toJson)])) ∨
    (∃ path bytes, op = .save path bytes ∧ w' = w.save path bytes ∧ ∀ q, nextReceipt q op r = q) := by
  cases op
  case post url proposal =>
    cases answer
    case entered entry =>
      simp only [Op.exec, Option.ite_none_right_eq_some, Option.some.injEq, Prod.mk.injEq] at h
      obtain ⟨hac, rfl, rfl⟩ := h
      exact .inr (.inl ⟨url, proposal, entry, rfl, hac, rfl, fun q => .inr (by simp only [nextReceipt, if_true])⟩)
    case lostEntry entry message =>
      simp only [Op.exec, Option.ite_none_right_eq_some, Option.some.injEq, Prod.mk.injEq] at h
      obtain ⟨hac, rfl, rfl⟩ := h
      exact .inr (.inl ⟨url, proposal, entry, rfl, hac, rfl, fun q => .inl rfl⟩)
    case refused status data =>
      simp only [Op.exec, Option.ite_none_left_eq_some, Option.some.injEq, Prod.mk.injEq] at h
      obtain ⟨hs, rfl, rfl⟩ := h
      exact .inl ⟨rfl, fun q => if_neg hs⟩
    case failed message =>
      obtain ⟨rfl, rfl⟩ := Prod.mk.inj (Option.some.inj h)
      exact .inl ⟨rfl, fun q => rfl⟩
    all_goals contradiction
  case save path bytes =>
    cases answer
    case done =>
      obtain ⟨rfl, rfl⟩ := Prod.mk.inj (Option.some.inj h)
      exact .inr (.inr ⟨path, bytes, rfl, rfl, fun q => rfl⟩)
    case lostFile message =>
      obtain ⟨rfl, rfl⟩ := Prod.mk.inj (Option.some.inj h)
      exact .inr (.inr ⟨path, bytes, rfl, rfl, fun q => rfl⟩)
    case failed message =>
      obtain ⟨rfl, rfl⟩ := Prod.mk.inj (Option.some.inj h)
      exact .inl ⟨rfl, fun q => rfl⟩
    all_goals contradiction
  all_goals
    cases answer
    all_goals first
      | contradiction
      | (obtain ⟨rfl, rfl⟩ := Prod.mk.inj (Option.some.inj h)
         exact .inl ⟨rfl, fun q => rfl⟩)

lemma accepts_iff {url : String} : w.accepts url proposal entry = true ↔
    entry.uuid ≠ "" ∧ (∀ other ∈ w.logs url, other.uuid ≠ entry.uuid) ∧ (recordedHash proposal).isSome = true ∧
      entry.recorded = recordedHash proposal := by
  simp [World.accepts, and_assoc]

lemma Evident.enter (h : Evident w log) (ha : w.accepts url proposal entry = true) (he : submits url proposal e)
    (hknown : ∀ t url' proposal' data, (receipts d.sha256).known t (e :: log) = some (url', proposal', data) →
      (receipts d.sha256).known t log = some (url', proposal', data) ∨
        url' = url ∧ proposal' = proposal ∧ data = .object [(entry.uuid, entry.toJson)]) :
    Evident (w.enter url entry) (e :: log) := by
  obtain ⟨huuid, hfresh, hsome, hkept⟩ := accepts_iff.mp ha
  obtain ⟨recorded, hrecorded⟩ := Option.isSome_iff_exists.mp hsome
  constructor
  case entered =>
    intro url' other hother
    rcases mem_enter_cases hother with hold | ⟨rfl, rfl⟩
    · obtain ⟨hne, proposal', recorded', hs, hr⟩ := h.entered url' other hold
      exact ⟨hne, proposal', recorded', hs.cons e, hr⟩
    · exact ⟨huuid, proposal, recorded, ⟨e, List.mem_cons_self, he⟩, hrecorded, hkept.trans hrecorded⟩
  case distinct =>
    intro url' other other' hother hother' heq
    rcases mem_enter_cases hother with hold | ⟨rfl, rfl⟩ <;> rcases mem_enter_cases hother' with hold' | ⟨hurl, rfl⟩
    · exact h.distinct url' other other' hold hold' heq
    · subst hurl
      exact absurd heq (hfresh other hold)
    · exact absurd heq.symm (hfresh other' hold')
    · rfl
  case receipt =>
    intro t url' proposal' data hk
    rcases hknown t url' proposal' data hk with hold | ⟨rfl, rfl, rfl⟩
    · obtain ⟨other, hother, hrest⟩ := h.receipt t url' proposal' data hold
      exact ⟨other, mem_enter hother, hrest⟩
    · exact ⟨entry, mem_enter_self, rfl, hkept⟩
  case stored =>
    intro path bytes hl hp
    obtain ⟨wrapper, hb, hev⟩ := h.stored path bytes hl hp
    exact ⟨wrapper, hb, hev.grown (.enter w url entry)⟩

lemma known_act (t : ℕ) (h : ∀ q, nextReceipt q a.op a.reply = q) :
    (receipts d.sha256).known t (.act a :: log) = (receipts d.sha256).known t log := by
  rcases known_act_cases a t log with heq | ⟨-, heq⟩
  · exact heq
  · exact heq.trans (h _)

lemma Evident.same (h : Evident w log) (hk : ∀ t, (receipts d.sha256).known t (e :: log) = (receipts d.sha256).known t log) :
    Evident w (e :: log) where
  entered url entry hentry := by
    obtain ⟨hne, proposal, recorded, hs, hr⟩ := h.entered url entry hentry
    exact ⟨hne, proposal, recorded, hs.cons e, hr⟩
  distinct := h.distinct
  receipt t url proposal data hd := h.receipt t url proposal data ((hk t).symm.trans hd)
  stored := h.stored

lemma Evident.save (h : Evident w log) (hs : isWrapperPath path = true → ∃ wrapper : CertificateWrapper,
      bytes = wrapper.bytes ∧ Evidenced d.sha256 w wrapper) : Evident (w.save path bytes) log where
  entered := h.entered
  distinct := h.distinct
  receipt := h.receipt
  stored path' bytes' hl hp := by
    by_cases hpath : path' = path
    · subst hpath
      obtain rfl := Option.some.inj ((AList.lookup_insert _).symm.trans hl)
      exact hs hp
    · exact h.stored path' bytes' ((AList.lookup_insert_ne hpath).symm.trans hl) hp

lemma evident_inductive : Inductive (S := publications d) (receipts d.sha256) (fun _ => True) free
    (fun w log => Evident w log) where
  act {w w' log a} h ha := by
    rcases exec_effect ha.exec with ⟨rfl, hq⟩ | ⟨url, proposal, entry, hop, hac, rfl, hq⟩ | ⟨path, bytes, hop, rfl, hq⟩
    · exact h.same fun t => known_act t hq
    · have hsubmits : submits url proposal (.act a : (publications d).Entry) := by
        obtain ⟨t, op, choice, reply⟩ := a
        obtain rfl : op = .post url proposal := hop
        exact ⟨rfl, rfl⟩
      refine h.enter hac hsubmits ?_
      · intro t url' proposal' data hk
        rcases known_act_cases a t log with heq | ⟨rfl, heq⟩
        · exact .inl (heq.symm.trans hk)
        · rcases hq ((receipts d.sha256).known a.tid log) with hsame | hnew
          · exact .inl (hsame.symm.trans (heq.symm.trans hk))
          · obtain ⟨rfl, hrest⟩ := Prod.mk.inj (Option.some.inj (hnew.symm.trans (heq.symm.trans hk)))
            obtain ⟨rfl, rfl⟩ := Prod.mk.inj hrest
            exact .inr ⟨rfl, rfl, rfl⟩
    · refine (h.same fun t => known_act t hq).save fun hp => ?_
      have hallowed := ha.allowed
      rw [hop] at hallowed
      obtain ⟨wrapper, hb, hw⟩ := hallowed hp
      exact ⟨wrapper, hb, h.evidenced ⟨a.tid, rfl⟩ hw⟩
  env {w w' log e} h _ he _ := by
    cases e with
    | pass ms =>
      obtain rfl := Option.some.inj he
      have hsame : Evident w (.env (.pass ms) :: log) := h.same fun _ => rfl
      exact ⟨hsame.entered, hsame.distinct, hsame.receipt, hsame.stored⟩
    | submit url proposal entry =>
      simp only [Outside.run, Option.ite_none_right_eq_some, Option.some.injEq] at he
      obtain ⟨hac, rfl⟩ := he
      exact h.enter hac ⟨rfl, rfl⟩ fun _ _ _ _ hk => .inl hk

def noEvidence (now : ℕ) : World := ⟨now, fun _ => [], ∅⟩

lemma evident_initial (now : ℕ) : Evident (d := d) (noEvidence now) [] where
  entered _ _ h := absurd h List.not_mem_nil
  distinct _ _ _ h := absurd h List.not_mem_nil
  receipt t url proposal data h := by cases h
  stored path bytes h := by simp [noEvidence] at h

lemma evident_reachable {now : ℕ} {c : (publications d).Config} (h : Reachable free (initial (noEvidence now)) c) :
    Evident c.state c.log :=
  evident_inductive.run (receipts_governs d) (conforms_initial trivial) (evident_initial now) h

lemma grown_reachable {c c' : (publications d).Config} (h : Reachable free c c') : Grown c.state c'.state := by
  induction h with
  | refl => exact .refl _
  | tail _ hs ih =>
    intro url entry hentry
    have hold := ih url entry hentry
    cases hs with
    | start j hj => exact hold
    | pick t next b hp => exact hold
    | act t op next choice reply s hp he hk =>
      rcases exec_effect he with ⟨rfl, -⟩ | ⟨url', proposal, entry', -, -, rfl, -⟩ | ⟨path, bytes, -, rfl, -⟩
      · exact hold
      · exact mem_enter hold
      · exact hold
    | env e s he hk =>
      cases e with
      | pass ms =>
        obtain rfl := Option.some.inj he
        exact hold
      | submit url' proposal entry' =>
        simp only [Outside.run, Option.ite_none_right_eq_some, Option.some.injEq] at he
        obtain ⟨-, rfl⟩ := he
        exact mem_enter hold

end Runs

section Verdicts

variable {c c' : (publications d).Config} {now : ℕ} {get : String → Response} {hash hash' entryUuid : String}
  {previousHash previousHash' : Option String} {index : Option Json}

/-- What a stored file is told when it is checked against the logs. -/
def BornOut (wrapper : CertificateWrapper) : RekorVerificationResult → Prop
  | .valid entryUuid logIndex rekorUrl => ∃ info, wrapper.rekorEntry = some info ∧ info.status = .published ∧
      info.entryUuid = some entryUuid ∧ info.logIndex = logIndex ∧ info.rekorUrl = rekorUrl
  | .invalid reason => reason.isUnanswered = true ∧ ∃ info, wrapper.rekorEntry = some info ∧ info.status = .published
  | .absent => wrapper.rekorEntry = none
  | .recordedFailure => ∃ info, wrapper.rekorEntry = some info ∧ info.status = .failed

lemma Evidenced.bornOut (h : Evidenced sha256 w wrapper)
    (hunique : ∀ url entry entry', entry ∈ w.logs url → entry' ∈ w.logs url → entry.uuid = entry'.uuid → entry = entry')
    (hne : ∀ url entry, entry ∈ w.logs url → entry.uuid ≠ "")
    (hget : ∀ info uuid, wrapper.rekorEntry = some info → info.entryUuid = some uuid →
      Answers w info.rekorUrl uuid (get (entryUrl info.rekorUrl uuid))) :
    BornOut wrapper (verifyRekorEntry sha256 wrapper.hash wrapper.previousCertificateHash wrapper.rekorEntry get) := by
  cases hinfo : wrapper.rekorEntry with
  | none => exact hinfo
  | some info =>
    cases hstatus : info.status with
    | failed =>
      simp only [verifyRekorEntry, hstatus]
      exact ⟨info, hinfo, hstatus⟩
    | published =>
      obtain ⟨entry, hentry, huuid, hindex, hrecorded⟩ := h info hinfo hstatus
      have htruthy : truthy info.entryUuid = some entry.uuid :=
        KeyRegistry.truthy_eq_some_iff.mpr ⟨huuid, hne _ _ hentry⟩
      simp only [verifyRekorEntry, hstatus, htruthy]
      have hanswer := hget info entry.uuid hinfo huuid
      by_cases h200 : ∃ data, get (entryUrl info.rekorUrl entry.uuid) = .answered 200 data
      · obtain ⟨data, hdata⟩ := h200
        rw [hdata] at hanswer
        obtain ⟨key, entry', hentry', heq, rfl⟩ := hanswer rfl
        obtain rfl := hunique _ _ _ hentry' hentry heq
        rw [hdata, (checkResponse_entry hrecorded (sha256.hex_ne_empty _)).mpr ⟨rfl, rfl⟩]
        exact ⟨info, hinfo, hstatus, huuid, rfl, rfl⟩
      · obtain ⟨reason, hreason, hunanswered⟩ := checkResponse_unanswered
          (sha256.hex (payload wrapper.hash wrapper.previousCertificateHash)) entry.uuid fun data h => h200 ⟨data, h⟩
        rw [hreason]
        exact ⟨hunanswered, info, hinfo, hstatus⟩

lemma valid_recorded (ha : ∀ uuid, info.entryUuid = some uuid →
      Answers w info.rekorUrl uuid (get (entryUrl info.rekorUrl uuid)))
    (hrecorded : ∀ url entry, entry ∈ w.logs url → ∃ recorded, entry.recorded = some recorded)
    (hv : verifyRekorEntry sha256 hash previousHash (some info) get = .valid entryUuid index url) :
    url = info.rekorUrl ∧ info.entryUuid = some entryUuid ∧ ∃ key, ∃ entry ∈ w.logs url, entry.uuid = entryUuid ∧
      get (entryUrl url entryUuid) = .answered 200 (.object [(key, entry.toJson)]) ∧
      entry.recorded = some ("sha256", sha256.hex (payload hash previousHash)) := by
  simp only [verifyRekorEntry] at hv
  split at hv
  · contradiction
  split at hv
  · contradiction
  rename_i uuid huuid
  split at hv
  rotate_left
  · contradiction
  rename_i hcheck
  injection hv with h1 h2 h3
  subst h1 h2 h3
  have hsome : info.entryUuid = some uuid := (KeyRegistry.truthy_eq_some_iff.mp huuid).1
  refine ⟨rfl, hsome, ?_⟩
  by_cases h200 : ∃ data, get (entryUrl info.rekorUrl uuid) = .answered 200 data
  · obtain ⟨data, hdata⟩ := h200
    have hanswer := ha uuid hsome
    rw [hdata] at hanswer
    obtain ⟨key, entry, hentry, heq, rfl⟩ := hanswer rfl
    obtain ⟨⟨algorithm, value⟩, hr⟩ := hrecorded _ _ hentry
    rw [hdata, checkResponse_entry hr (sha256.hex_ne_empty _)] at hcheck
    obtain ⟨rfl, rfl⟩ := hcheck
    exact ⟨key, entry, hentry, heq, hdata, hr⟩
  · obtain ⟨reason, hreason, -⟩ := checkResponse_unanswered (sha256.hex (payload hash previousHash)) uuid
      fun data h => h200 ⟨data, h⟩
    rw [hreason] at hcheck
    contradiction

/-- A certificate that passes the check was submitted to the log before, by whomever, with the certificate that it
names as the one before it; and nothing passes in its place short of a collision. -/
theorem verified_was_submitted (hc : Reachable free (initial (noEvidence now)) c)
    (ha : ∀ uuid, info.entryUuid = some uuid → Answers c.state info.rekorUrl uuid (get (entryUrl info.rekorUrl uuid)))
    (hv : verifyRekorEntry d.sha256 hash previousHash (some info) get = .valid entryUuid index url) :
    (∃ proposal, Submitted c.log url proposal ∧
      recordedHash proposal = some ("sha256", d.sha256.hex (payload hash previousHash))) ∧
    ∀ hash' previousHash', verifyRekorEntry d.sha256 hash' previousHash' (some info) get = .valid entryUuid index url →
      (hash', previousHash') = (hash, previousHash) ∨ payload hash' previousHash' ≠ payload hash previousHash ∧
        d.sha256.hex (payload hash' previousHash') = d.sha256.hex (payload hash previousHash) := by
  have hev := evident_reachable hc
  have hrecorded (url : String) (entry : LogEntry) (h : entry ∈ c.state.logs url) :
      ∃ recorded, entry.recorded = some recorded := by
    obtain ⟨-, -, recorded, -, -, hr⟩ := hev.entered url entry h
    exact ⟨recorded, hr⟩
  obtain ⟨hurl, -, key, entry, hentry, huuid, hget, hr⟩ := valid_recorded ha hrecorded hv
  refine ⟨?_, fun hash' previousHash' hv' => ?_⟩
  · obtain ⟨-, proposal, recorded, hs, hp, hr'⟩ := hev.entered url entry hentry
    exact ⟨proposal, hs, hp.trans (hr'.symm.trans hr)⟩
  · obtain ⟨-, -, key', entry', hentry', huuid', -, hr'⟩ := valid_recorded ha hrecorded hv'
    obtain rfl := hev.distinct url entry' entry hentry' hentry (huuid'.trans huuid.symm)
    have hdigest := (Prod.mk.inj (Option.some.inj (hr'.symm.trans hr))).2
    by_cases hp : payload hash' previousHash' = payload hash previousHash
    · obtain ⟨rfl, rfl⟩ := payload_injective hp
      exact .inl rfl
    · exact .inr ⟨hp, hdigest⟩

end Verdicts

section Samples

def sampleDigest : String := "87f285ab39c44f0b6d321d6aade1e5dd5c0287d0e1e6d8a9976256496510bb9a"

/-- Only one text is hashed in the samples. -/
def sampleSha256 : Sha256 where
  hex text := if text = payload "ab12" none then sampleDigest else String.ofList (List.replicate 64 '0')
  length_hex text := by split <;> rfl

def sampleDeployment : Deployment := ⟨sampleSha256, "evidence", false, some "https://rekor.sigstore.dev"⟩

def sampleChained : Chained := ⟨"ada", "request", "acme", "header.payload.signature", "ab12", none, 1⟩

def sampleEntry (uuid digest : String) : LogEntry where
  uuid := uuid
  logIndex := 7
  body := "\x7b \"spec\": \x7b \"data\": \x7b \"hash\": \x7b \"algorithm\": \"sha256\", \"value\": \"" ++ digest
    ++ "\" \x7d \x7d \x7d \x7d"
  more := []

abbrev SampleEvent := (publications sampleDeployment).Event

def storedSample : List SampleEvent :=
  [.start sampleChained, .act 0 .done, .act 0 (.text "versions/1"), .act 0 (.text "c2ln"), .act 0 (.text "pem"),
    .act 0 (.entered (sampleEntry "24296fb2" sampleDigest)), .act 0 (.failed "UNAVAILABLE"), .act 0 .done, .act 0 .done]

def submittedByOthers : List SampleEvent :=
  [.env (.submit "https://rekor.sigstore.dev" (proposal "c2ln" "other" "00ff") (sampleEntry "9d1c" "00ff"))]

def samplePath : String := "certificates/acme/1970/01/01/certificate-request.json"

def sampleInfo : RekorLogEntryInfo where
  status := .published
  entryUuid := some "24296fb2"
  rekorUrl := "https://rekor.sigstore.dev"
  attemptedAt := "1970-01-01T00:00:00.000Z"

/-- The log keys its answer in capitals. -/
def sampleGet : String → Response :=
  fun _ => .answered 200 (.object [("24296FB2", (sampleEntry "24296fb2" sampleDigest).toJson)])

lemma sampleGet_valid :
    verifyRekorEntry sampleSha256 "ab12" none (some sampleInfo) sampleGet = .valid "24296fb2" none "https://rekor.sigstore.dev" := by
  have hr : (sampleEntry "24296fb2" sampleDigest).recorded = some ("sha256", sampleDigest) := by decide +kernel
  have hd : sampleSha256.hex (payload "ab12" none) = sampleDigest := by simp only [sampleSha256, if_true]
  have ht : truthy sampleInfo.entryUuid = some "24296fb2" := by decide
  have hstatus : sampleInfo.status = .published := rfl
  simp only [verifyRekorEntry, hstatus, ht, hd, sampleGet, (checkResponse_entry hr (by decide)).mpr ⟨rfl, rfl⟩]
  rfl

theorem verified_was_submitted_sample : ∃ c : (publications sampleDeployment).Config,
    Reachable free (initial (noEvidence 0)) c ∧
    verifyRekorEntry sampleSha256 "ab12" none (some sampleInfo) sampleGet =
      .valid "24296fb2" none "https://rekor.sigstore.dev" ∧
    ∃ proposal, Submitted c.log "https://rekor.sigstore.dev" proposal ∧
      recordedHash proposal = some ("sha256", sampleSha256.hex (payload "ab12" none)) := by
  have h : ∃ c : (publications sampleDeployment).Config, Reachable free (initial (noEvidence 0)) c ∧
      (c.state.logs "https://rekor.sigstore.dev").map (fun e => (e.uuid, e.logIndex, e.body, e.more.length)) =
        [("24296fb2", 7, (sampleEntry "24296fb2" sampleDigest).body, 0)] :=
    exists_reachable storedSample _ (by decide +kernel)
  obtain ⟨c, hc, hlogs⟩ := h
  have hentry : sampleEntry "24296fb2" sampleDigest ∈ c.state.logs "https://rekor.sigstore.dev" := by
    obtain ⟨⟨uuid, index, body, more⟩, hlog, heq⟩ := List.map_eq_singleton_iff.mp hlogs
    simp only [Prod.mk.injEq, List.length_eq_zero_iff] at heq
    obtain ⟨rfl, rfl, rfl, rfl⟩ := heq
    rw [hlog]
    exact List.mem_singleton_self _
  have hanswers (uuid : String) (hu : sampleInfo.entryUuid = some uuid) :
      Answers c.state sampleInfo.rekorUrl uuid (sampleGet (entryUrl sampleInfo.rekorUrl uuid)) :=
    fun _ => ⟨_, _, hentry, Option.some.inj hu, rfl⟩
  exact ⟨c, hc, sampleGet_valid, (verified_was_submitted hc hanswers sampleGet_valid).1⟩

end Samples

end ChameleonVault.Evidence
