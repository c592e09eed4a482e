import ChameleonVault.Concurrency.Sequence
import ChameleonVault.Deletion.Archive
import ChameleonVault.Deletion.Lookups
import ChameleonVault.KeyRegistry.Collection

/-! Life in the vault after a certificate: the calls that come one after another, on key documents, on
deletion requests and on the registry, and the certificate that is asked for among them. -/

namespace ChameleonVault.Deletion

open Concurrency Interleaving DeletionRequestService
open KeyRegistry (Date KeyMetadata KeyOp KeyStatus KeyWrite Owner OwnedRequest getDocId)

section Calls

inductive VaultOp where
  | key (owner : Owner) (op : KeyOp)
  | request (op : Op)
  | registry (registryEntries declarations : List PiiRegistryEntry)
  | tick (ms : ℕ)

def VaultOp.Res : VaultOp → Type
  | .key _ op => op.Res
  | .request op => op.Res
  | .registry _ _ => Unit
  | .tick _ => Unit

inductive VaultChoice where
  | key (outcome : KeyRegistry.Outcome)
  | request (outcome : Outcome)

def World.writeKeyDoc (owner : Owner) (doc : Option KeyMetadata) (w : World) : World :=
  match doc with
  | some data => { w with keyRegistry := w.keyRegistry.insert owner.docId data }
  | none => w

def VaultOp.exec (d : Deployment) : (op : VaultOp) → VaultChoice → World → Option (Except String op.Res × World)
  | .key owner op, .key outcome, w =>
    (op.exec outcome ⟨w.clock, w.keyRegistry.lookup owner.docId⟩).map fun r => (r.1, w.writeKeyDoc owner r.2.doc)
  | .request op, .request outcome, w => op.exec d outcome w
  | .registry registryEntries declarations, _, w =>
    some (.ok (), { w with registryEntries := registryEntries, declarations := declarations })
  | .tick ms, _, w => some (.ok (), { w with clock := w.clock + ms })
  | _, _, _ => none

abbrev VaultRun := Prog VaultOp fun op => Except String op.Res

inductive VaultCall where
  | key (call : OwnedRequest)
  | createRequest (userId operationId tenantId : String) (requestedBy : Option String)
  | changeRegistry (registryEntries declarations : List PiiRegistryEntry)
  | wait (ms : ℕ)

def VaultCall.body : VaultCall → VaultRun Unit
  | .key call => (call.request.body call.owner.userId).rename (fun op => .key call.owner op) fun _ reply => reply
  | .createRequest userId operationId tenantId requestedBy =>
    (ignore (DeletionRequestService.createRequest userId operationId tenantId requestedBy)).rename .request fun _ reply => reply
  | .changeRegistry registryEntries declarations => .step (.registry registryEntries declarations) fun _ => .done ()
  | .wait ms => .step (.tick ms) fun _ => .done ()

/-- Key material that an operation brings into a document. -/
def storesKey : KeyOp → Bool
  | .write (.set _ _) => true
  | .write (.rotate _ _) => true
  | _ => false

/-- No key reaches this document. -/
def keepsKeyOut (docId : String) (_ : World) : VaultOp → VaultChoice → Prop
  | .key owner op, .key outcome => owner.docId = docId → storesKey op = true → outcome = .fail false
  | _, _ => True

instance (docId : String) (w : World) (op : VaultOp) (choice : VaultChoice) : Decidable (keepsKeyOut docId w op choice) := by
  simp only [keepsKeyOut]
  split <;> infer_instance

end Calls

section Steps

variable {d : Deployment} {w w' : World} {userId tenantId id : String} {stored : StoredCertificate}
  {completed : DeletionRequest}

structure Retrievable (d : Deployment) (userId tenantId : String) (stored : StoredCertificate) (w : World) : Prop where
  keyed : Keyed w
  erased : KeyErased userId tenantId w
  certified : Certified d userId tenantId stored w

lemma keyErased_iff : KeyErased userId tenantId w ↔
    ∃ data, w.keyDoc userId tenantId = some data ∧ (data.status = .shredded ∨ data.status = .deleted) := by
  simp only [KeyErased, World.getKeyStatus, KeyRegistry.getKeyStatus, Option.map_eq_some_iff]
  constructor
  · rintro ⟨_, ⟨data, hl, rfl⟩, hs⟩
    exact ⟨data, hl, hs⟩
  · rintro ⟨data, hl, hs⟩
    exact ⟨_, ⟨data, hl, rfl⟩, hs⟩

lemma KeyErased.of_eq (h : KeyErased userId tenantId w)
    (hk : w'.keyDoc userId tenantId = w.keyDoc userId tenantId) : KeyErased userId tenantId w' := by
  rw [keyErased_iff] at h ⊢
  rwa [hk]

lemma requests_of_eq (h : w'.deletionRequests = w.deletionRequests) : w'.requests = w.requests := by
  simp only [World.requests, h]

lemma storedCertificate_of_eq (h : w'.bucket = w.bucket) : w'.storedCertificate d completed = w.storedCertificate d completed := by
  simp only [World.storedCertificate, World.downloadCertificate, h]

lemma Retrievable.frame (h : Retrievable d userId tenantId stored w) (hr : w'.deletionRequests = w.deletionRequests)
    (he : KeyErased userId tenantId w') (hb : w'.bucket = w.bucket) : Retrievable d userId tenantId stored w' where
  keyed := h.keyed.of_eq hr
  erased := he
  certified := by
    obtain ⟨completed, hn, hs⟩ := h.certified
    refine ⟨completed, ⟨?_, hn.completed, fun other hm => ?_⟩, (storedCertificate_of_eq hb).trans hs⟩
    · rw [requests_of_eq hr]
      exact hn.stored
    · rw [requests_of_eq hr] at hm
      exact hn.newest other hm

/-- A request that is only being created is no completed one. -/
lemma Retrievable.create (h : Retrievable d userId tenantId stored w) (hn : w.deletionRequests.lookup id = none)
    {userId' tenantId' : String} {requestedBy : Option String} :
    Retrievable d userId tenantId stored (w.putRequest id (.new userId' id tenantId' requestedBy w.clock)) where
  keyed := h.keyed.putRequest rfl
  erased := h.erased
  certified := by
    obtain ⟨completed, hc, hs⟩ := h.certified
    refine ⟨completed, ⟨?_, hc.completed, fun other hm ho => ?_⟩, hs⟩
    · obtain ⟨id', hl⟩ := mem_requests.mp hc.stored
      exact mem_requests.mpr ⟨id', by rw [lookup_putRequest hl, if_neg fun he => by rw [he, hl] at hn; contradiction]⟩
    · obtain ⟨id', hl⟩ := mem_requests.mp hm
      by_cases hid : id' = id
      · subst hid
        rw [World.putRequest, AList.lookup_insert] at hl
        obtain rfl := Option.some.inj hl
        rcases ho.2 with ho | ho <;> contradiction
      · rw [World.putRequest, AList.lookup_insert_ne hid] at hl
        exact hc.newest other (mem_requests.mpr ⟨id', hl⟩) ho

def Creating (op : Op) : Prop := op.isCreation = true ∨ Work op

lemma Retrievable.requestOp {op : Op} {choice : Outcome} {reply : Except String op.Res}
    (h : Retrievable d userId tenantId stored w) (hop : Creating op) (he : op.exec d choice w = some (reply, w')) :
    Retrievable d userId tenantId stored w' := by
  rcases exec_cases he with ⟨-, answer, r, hrun, -⟩ | ⟨-, rfl⟩
  · rcases hop with hop | hop
    · cases op <;> try contradiction
      case getActiveDeletionRequestForUser =>
        obtain ⟨-, rfl⟩ := Prod.mk.inj (Except.ok.inj (Option.some.inj hrun))
        exact h
      case createDeletionRequest userId' id tenantId' requestedBy =>
        have hc : w.createDeletionRequest userId' id tenantId' requestedBy = (r, w') := Except.ok.inj (Option.some.inj hrun)
        simp only [World.createDeletionRequest] at hc
        split at hc
        · obtain ⟨-, rfl⟩ := Prod.mk.inj hc
          exact h
        · rename_i hn
          obtain ⟨-, rfl⟩ := Prod.mk.inj hc
          exact h.create hn
    · have hreq : w'.deletionRequests = w.deletionRequests :=
        run_requests hrun (by cases op <;> first | rfl | contradiction) (by rintro u o t b rfl; contradiction)
      have hkeys : w'.keyRegistry = w.keyRegistry := run_keyRegistry hrun (by rintro u t i rfl; contradiction)
      have hbucket : w'.bucket = w.bucket := (run_records hrun (by cases op <;> first | rfl | contradiction)).2.2
      exact h.frame hreq (h.erased.of_eq (by rw [World.keyDoc, World.keyDoc, hkeys])) hbucket
  · exact h

lemma erased_apply {write : KeyWrite} {now : Date} {doc : Option KeyMetadata} {data data' : KeyMetadata}
    (ha : write.apply now doc = .ok data') (hd : doc = some data) (hs : data.status = .shredded ∨ data.status = .deleted)
    (hkey : storesKey (.write write) = false) : data'.status = .shredded ∨ data'.status = .deleted := by
  subst hd
  cases write with
  | set userId dek => contradiction
  | rotate deks activeDekId => contradiction
  | shred deletionRequestId =>
    obtain rfl := Except.ok.inj ha
    exact .inl rfl
  | addDestination destination =>
    obtain rfl := Except.ok.inj ha
    exact hs

lemma keyDoc_writeKeyDoc {owner : Owner} {doc : Option KeyMetadata} : (w.writeKeyDoc owner doc).keyDoc userId tenantId =
    if owner.docId = getDocId tenantId userId then doc.orElse fun _ => w.keyDoc userId tenantId
    else w.keyDoc userId tenantId := by
  cases doc with
  | none => simp [World.writeKeyDoc]
  | some data =>
    simp only [World.writeKeyDoc, World.keyDoc]
    split
    · rename_i hid
      rw [hid, AList.lookup_insert]
      rfl
    · rename_i hid
      exact AList.lookup_insert_ne (Ne.symm hid)

lemma write_of_commits {op : KeyOp} {outcome : KeyRegistry.Outcome} {reply : Except String op.Res} {write : KeyWrite}
    (h : KeyRegistry.commits (.act (⟨0, op, outcome, reply⟩ : (KeyRegistry.keyDocument "").Action)) = some write) :
    op = .write write ∧ outcome ≠ .fail false := by
  cases op with
  | write written =>
    cases outcome with
    | done =>
      cases reply with
      | error e => contradiction
      | ok u => exact ⟨congrArg KeyOp.write (Option.some.inj h), nofun⟩
    | dek bytes => contradiction
    | fail committed =>
      cases committed with
      | true => exact ⟨congrArg KeyOp.write (Option.some.inj h), nofun⟩
      | false => contradiction
  | _ => contradiction

lemma Retrievable.keyOp {owner : Owner} {op : KeyOp} {outcome : KeyRegistry.Outcome} {reply : Except String op.Res}
    (h : Retrievable d userId tenantId stored w)
    (hop : owner.docId = getDocId tenantId userId → storesKey op = true → outcome = .fail false)
    (he : VaultOp.exec d (.key owner op) (.key outcome) w = some (reply, w')) :
    Retrievable d userId tenantId stored w' := by
  obtain ⟨⟨reply', s⟩, hexec, hw⟩ := Option.map_eq_some_iff.mp he
  obtain ⟨-, rfl⟩ := Prod.mk.inj hw
  refine h.frame (by cases s.doc <;> rfl) ?_ (by cases s.doc <;> rfl)
  obtain ⟨data, hl, hs⟩ := keyErased_iff.mp h.erased
  rw [keyErased_iff, keyDoc_writeKeyDoc]
  by_cases hid : owner.docId = getDocId tenantId userId
  · have hdoc : w.keyRegistry.lookup owner.docId = some data := by rw [hid]; exact hl
    have hcommits := KeyRegistry.exec_commits (a := (⟨0, op, outcome, reply'⟩ : (KeyRegistry.keyDocument "").Action)) hexec
    rw [if_pos hid]
    cases hc : KeyRegistry.commits (.act (⟨0, op, outcome, reply'⟩ : (KeyRegistry.keyDocument "").Action)) with
    | none =>
      rw [hc] at hcommits
      exact ⟨data, by rw [show s.doc = some data from hcommits.trans hdoc]; rfl, hs⟩
    | some write =>
      rw [hc] at hcommits
      obtain ⟨data', ha, hwritten⟩ := hcommits
      obtain ⟨hwrite, hreached⟩ := write_of_commits hc
      refine ⟨data', by rw [hwritten]; rfl, erased_apply ha hdoc hs ?_⟩
      rw [Bool.eq_false_iff]
      exact fun hkey => hreached (hop hid (hwrite ▸ hkey))
  · rw [if_neg hid]
    exact ⟨data, hl, hs⟩

def Living : VaultOp → Prop
  | .request op => Creating op
  | _ => True

lemma Retrievable.exec {op : VaultOp} {choice : VaultChoice} {reply : Except String op.Res} (hop : Living op)
    (ha : keepsKeyOut (getDocId tenantId userId) w op choice) (h : Retrievable d userId tenantId stored w)
    (he : op.exec d choice w = some (reply, w')) : Retrievable d userId tenantId stored w' := by
  cases op with
  | key owner op =>
    cases choice with
    | key outcome => exact h.keyOp ha he
    | request outcome => contradiction
  | request op =>
    cases choice with
    | key outcome => contradiction
    | request outcome => exact h.requestOp hop he
  | registry registryEntries declarations =>
    obtain ⟨-, rfl⟩ := Prod.mk.inj (Option.some.inj he)
    exact h.frame rfl (h.erased.of_eq rfl) rfl
  | tick ms =>
    obtain ⟨-, rfl⟩ := Prod.mk.inj (Option.some.inj he)
    exact h.frame rfl (h.erased.of_eq rfl) rfl

lemma body_living (j : VaultCall) : j.body.Uses Living := by
  cases j with
  | key call => exact Prog.Uses.rename (Prog.Uses.any _)
  | createRequest userId operationId tenantId requestedBy =>
    have hcreate : (ignore (DeletionRequestService.createRequest userId operationId tenantId requestedBy)).Uses Creating :=
      uses_ignore (createRequest_uses (fun _ => Or.inl) fun _ => Or.inr)
    exact Prog.Uses.rename hcreate
  | changeRegistry registryEntries declarations => exact ⟨trivial, fun _ => trivial⟩
  | wait ms => exact ⟨trivial, fun _ => trivial⟩

end Steps

section Runs

def ada : Owner := ⟨"acme", "ada"⟩

def done (n : ℕ) : List VaultChoice := List.replicate n (.key .done)

/-- A rotation that is refused, an encryption that finds no key, a lineage event, a change of the registry
and a new request. -/
def lifeGoesOn : List (VaultCall × List VaultChoice) :=
  [(.wait 1000, done 1),
    (.key ⟨ada, .job .keyRotate⟩, [.key .done, .key (.dek [7]), .key .done]),
    (.key ⟨ada, .job (.getKeyForUser none)⟩, done 1),
    (.key ⟨ada, .job (.addDestinationToUser "hubspot")⟩, done 1),
    (.changeRegistry [ledger] [], done 1),
    (.createRequest "ada" "second" "acme" none, List.replicate 3 (.request (.done .none)))]

def givenAKeyAgain : List (VaultCall × List VaultChoice) :=
  [(.key ⟨ada, .job .keyGenerate⟩, [.key .done, .key .done, .key (.dek [7]), .key .done])]

def certifiedForAda (w : World) : Bool :=
  decide ((w.getKeyStatus "ada" "acme").map KeyStatus.status = some .shredded) &&
    (w.getLatestCompletedDeletionRequestForUser "ada" "acme").any fun completed =>
      (w.storedCertificate smallDeployment completed).isSome

lemma certifiedForAda_retrievable (hw : Keyed w) (h : certifiedForAda w = true) :
    ∃ completed stored, w.storedCertificate smallDeployment completed = some stored ∧
      NewestCompleted "ada" "acme" completed w ∧ KeyErased "ada" "acme" w := by
  simp only [certifiedForAda, Bool.and_eq_true, decide_eq_true_eq] at h
  obtain ⟨keyStatus, hk, hshredded⟩ := Option.map_eq_some_iff.mp h.1
  obtain ⟨completed, hc, hs⟩ := (Option.any_eq_true _ _).mp h.2
  obtain ⟨stored, hs⟩ := Option.isSome_iff_exists.mp hs
  exact ⟨completed, stored, hs, (getLatestCompleted_iff hw).mp hc, keyStatus, hk, .inl hshredded⟩

end Runs

end ChameleonVault.Deletion
