import ChameleonVault.CertificateChain.Integrity
import ChameleonVault.Signer.Tokens

/-! The chain of a tenant as an outsider reads it: from the texts of the certificates alone. -/

namespace ChameleonVault.CertificateChain

open Collections Concurrency Interleaving Discipline Deletion Encoding HashChain
open Signer (SignedCertificate claimsJson nullable readSegment segment headerJson unsignedToken token)

section Texts

def signedCertificate (c : Certificate) : SignedCertificate :=
  ⟨⟨c.claims, c.previousCertificateHash, some c.chainSequence⟩, c.keyVersion, c.signature⟩

def certificateText (c : Certificate) : String := token (signedCertificate c)

/-- A certificate is hashed by its text. -/
def hashing (sha256 : String → String) (d : Deployment) : Deployment := { d with sha256 := fun c => sha256 (certificateText c) }

/-- What follows the first dot, up to the second one. -/
def payloadSegment (text : String) : List Char :=
  (text.toList.dropWhile (· ≠ '.')).tail.takeWhile (· ≠ '.')

def signatureSegment (text : String) : String :=
  String.ofList ((text.toList.dropWhile (· ≠ '.')).tail.dropWhile (· ≠ '.')).tail

def readPayload (text : String) : Option Json := readSegment (payloadSegment text)

variable {cs rest : List Char} {c : SignedCertificate}

lemma dropWhile_dot (h : ∀ d ∈ cs, d ≠ '.') : (cs ++ '.' :: rest).dropWhile (· ≠ '.') = '.' :: rest := by
  rw [List.dropWhile_append_of_pos (by simpa using h)]
  simp

lemma takeWhile_dot (h : ∀ d ∈ cs, d ≠ '.') : (cs ++ '.' :: rest).takeWhile (· ≠ '.') = cs := by
  rw [List.takeWhile_append_of_pos (by simpa using h)]
  simp

lemma toList_token (c : SignedCertificate) : (token c).toList =
    segment (headerJson c.kid) ++ '.' :: (segment (claimsJson c.payload) ++ '.' :: c.signature.toList) := by
  rw [token, String.toList_ofList, unsignedToken, List.append_assoc, List.cons_append]

lemma readPayload_token (c : SignedCertificate) : readPayload (token c) = some (claimsJson c.payload) := by
  have hdot (j : Json) : ∀ d ∈ segment j, d ≠ '.' := Base64.encodeUrl_no_dot _
  rw [readPayload, payloadSegment, toList_token, dropWhile_dot (hdot _), List.tail_cons, takeWhile_dot (hdot _),
    Signer.readSegment_segment]

lemma signatureSegment_token (c : SignedCertificate) : signatureSegment (token c) = c.signature := by
  have hdot (j : Json) : ∀ d ∈ segment j, d ≠ '.' := Base64.encodeUrl_no_dot _
  rw [signatureSegment, toList_token, dropWhile_dot (hdot _), List.tail_cons, dropWhile_dot (hdot _), List.tail_cons,
    String.ofList_toList]

lemma certificateText_injective : Function.Injective certificateText := by
  rintro ⟨claims, hash, sequence, keyVersion, signature⟩ ⟨claims', hash', sequence', keyVersion', signature'⟩ h
  have h := Signer.token_injective h
  simp only [signedCertificate, SignedCertificate.mk.injEq, Signer.DestructionCertificateClaims.mk.injEq,
    Option.some.injEq] at h
  obtain ⟨⟨rfl, rfl, rfl⟩, rfl, rfl⟩ := h
  rfl

end Texts

section Chain

/-- The newest text comes first; each one's payload names its tenant, its place and the text before it. -/
def ChainOfTexts (sha256 : String → String) (tenantId : String) : List String → Prop
  | [] => True
  | text :: texts => (∃ payload, readPayload text = some payload ∧
      payload.member? "tenantId" = some (.string tenantId) ∧
      payload.member? "chainSequence" = some (Json.ofNat (texts.length + 1)) ∧
      payload.member? "previousCertificateHash" = some (nullable ((texts.head?.map sha256).map .string))) ∧
    ChainOfTexts sha256 tenantId texts

variable {sha256 : String → String} {d : Deployment} {tenantId : String} {certificates : List Certificate}

lemma payload_members (c : Certificate) : ∃ payload, readPayload (certificateText c) = some payload ∧
    payload.member? "tenantId" = some (.string c.claims.tenantId) ∧
    payload.member? "chainSequence" = some (Json.ofNat c.chainSequence) ∧
    payload.member? "previousCertificateHash" = some (nullable (c.previousCertificateHash.map .string)) := by
  refine ⟨_, readPayload_token _, ?_⟩
  refine ⟨Json.member_record (by simp) ?_, Json.member_record (by simp) ?_, Json.member_record (by simp) ?_⟩
  · simp [signedCertificate]
  · simp [signedCertificate, nullable]
  · simp [signedCertificate]

lemma chainOfTexts_of_linked (hl : (certificateLinks (hashing sha256 d)).Linked certificates)
    (ht : ∀ c ∈ certificates, c.claims.tenantId = tenantId) :
    ChainOfTexts sha256 tenantId (certificates.map certificateText) := by
  induction certificates with
  | nil => trivial
  | cons c cs ih =>
    obtain ⟨hprev, hseq, hl⟩ := hl
    refine ⟨?_, ih hl fun c' hc' => ht c' (List.mem_cons_of_mem c hc')⟩
    obtain ⟨payload, hread, htenant, hsequence, hprevious⟩ := payload_members c
    have hhead : c.previousCertificateHash = ((cs.map certificateText).head?.map sha256) := by
      rw [List.head?_map, Option.map_map]
      exact hprev
    have hplace : c.chainSequence = (cs.map certificateText).length + 1 := by
      rw [List.length_map]
      exact hseq
    refine ⟨payload, hread, ?_, ?_, ?_⟩
    · rw [htenant, ht c List.mem_cons_self]
    · rw [hsequence, hplace]
    · rw [hprevious, hhead]

lemma injectiveOn_of_texts {certificates : List Certificate}
    (h : ∀ c ∈ certificates, ∀ c' ∈ certificates, sha256 (certificateText c) = sha256 (certificateText c') →
      certificateText c = certificateText c') : InjectiveOn (hashing sha256 d) certificates :=
  fun c hc c' hc' heq => certificateText_injective (h c hc c' hc' heq)

/-- Unless SHA-256 collides on two texts that were signed, the certificates of a tenant who has its
document to itself are a chain to whoever reads nothing but their texts, and the store ends where the
chain does. -/
theorem chain_of_texts {now : KeyRegistry.Date} {c : (ledger (hashing sha256 d)).Config}
    (hr : Reachable free (initial (emptyVault now)) c)
    (hsha : ∀ x ∈ signed c.log, ∀ y ∈ signed c.log, sha256 (certificateText x) = sha256 (certificateText y) →
      certificateText x = certificateText y) {tenantId : String} {document : DocumentPath}
    (hdoc : d.document tenantId = some document) (ha : Alone tenantId c.log) :
    ∃ texts : List String, texts = (history document c.log).map certificateText ∧
      ChainOfTexts sha256 tenantId texts ∧
      (c.state.certificateChain.lookup document).bind (·.lastHash) = texts.head?.map sha256 ∧
      ∀ text ∈ texts, ∃ entry, c.state.chainEntries.lookup (sha256 text) = some entry ∧ entry.tenantId = tenantId := by
  have hfaithful := (recorded_reachable hr).faithful (injectiveOn_of_texts hsha)
  refine ⟨_, rfl, ?_, ?_, ?_⟩
  · exact chainOfTexts_of_linked (hfaithful.linked document) (ha document hdoc)
  · have hhead := hfaithful.head document
    cases hh : history document c.log with
    | nil =>
      rw [hh] at hhead
      rw [show c.state.certificateChain.lookup document = none from hhead]
      rfl
    | cons x xs =>
      rw [hh] at hhead
      obtain ⟨state, entry, hstate, -, hlast, -⟩ := hhead
      rw [hstate]
      exact hlast
  · intro text htext
    obtain ⟨x, hx, rfl⟩ := List.mem_map.mp htext
    rw [← ha document hdoc x hx]
    exact hfaithful.stored document x hx

lemma hashing_signatures : hashing signatureSegment smallDeployment = smallDeployment := by
  have h : (fun c => signatureSegment (certificateText c)) = smallDeployment.sha256 :=
    funext fun c => signatureSegment_token _
  rw [hashing, h]

theorem chain_of_texts_contended :
    ∃ c : (ledger (hashing signatureSegment smallDeployment)).Config, Reachable free (initial (emptyVault 0)) c ∧
      (history ["acme"] c.log).map Certificate.signature = ["d", "b"] ∧
      ∃ texts : List String, texts = (history ["acme"] c.log).map certificateText ∧
        ChainOfTexts signatureSegment "acme" texts ∧
        (c.state.certificateChain.lookup ["acme"]).bind (·.lastHash) = texts.head?.map signatureSegment ∧
        ∀ text ∈ texts, ∃ entry, c.state.chainEntries.lookup (signatureSegment text) = some entry ∧
          entry.tenantId = "acme" := by
  have h (d : Deployment) (hd : d = smallDeployment) : ∃ c : (ledger d).Config,
      Reachable free (initial (emptyVault 0)) c ∧ InjectiveOn d (signed c.log) ∧
      (history ["acme"] c.log).map Certificate.signature = ["d", "b"] ∧
      ∀ document ∈ documentPath "acme", ∀ certificate ∈ history document c.log, certificate.claims.tenantId = "acme" := by
    subst hd
    exact exists_reachable contended _ (by decide +kernel)
  obtain ⟨c, hr, hinj, hh, halone⟩ := h _ hashing_signatures
  have hdoc : smallDeployment.document "acme" = some ["acme"] := by decide +kernel
  exact ⟨c, hr, hh, chain_of_texts hr (fun x hx y hy heq => congrArg certificateText (hinj x hx y hy heq)) hdoc halone⟩

end Chain

end ChameleonVault.CertificateChain
