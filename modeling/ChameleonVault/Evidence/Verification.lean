import ChameleonVault.Encoding.Base64
import ChameleonVault.Evidence.Records
import ChameleonVault.KeyRegistry.KeyMetadata

/-! What is submitted to a transparency log for a certificate, and how an entry of the log is
checked against the certificate afterwards. -/

namespace ChameleonVault.Evidence

open Encoding
open Encoding.Json (record ofNat)
open KeyRegistry (truthy)

/-- SHA-256 of a text, in hexadecimal. -/
structure Sha256 where
  hex : String → String
  length_hex (text : String) : (hex text).length = 64

section Submission

def payloadJson (certificateHash : String) (previousCertificateHash : Option String) : Json :=
  record [("certificateHash", some (.string certificateHash)),
    ("previousCertificateHash", some (orNull (textJson previousCertificateHash)))]

def payload (certificateHash : String) (previousCertificateHash : Option String) : String :=
  Json.stringify (payloadJson certificateHash previousCertificateHash)

def base64 (bs : List UInt8) : String := String.ofList (Base64.encode bs)

def hashJson (digest : String) : Json := record [("algorithm", some (.string "sha256")), ("value", some (.string digest))]

def proposal (signatureBase64Url publicKeyPem digest : String) : Json :=
  record [("kind", some (.string "hashedrekord")), ("apiVersion", some (.string "0.0.1")),
    ("spec", some (record [
      ("signature", some (record [
        ("content", some (.string (base64 (Base64.decode signatureBase64Url.toList)))),
        ("publicKey", some (record [("content", some (.string (base64 (Utf8.encode publicKeyPem.toList))))]))])),
      ("data", some (record [("hash", some (hashJson digest))]))]))]

/-- `spec.data.hash` -/
def specHash (j : Json) : Option Json :=
  ((j.member? "spec").bind (·.member? "data")).bind (·.member? "hash")

/-- The algorithm and the digest that a proposal or a log entry names. -/
def recordedHash (j : Json) : Option (String × String) := do
  let hash ← specHash j
  let algorithm ← text? hash "algorithm"
  let value ← text? hash "value"
  return (algorithm, value)

variable {hash hash' : String} {previous previous' : Option String}

lemma payload_injective (h : payload hash previous = payload hash' previous') : hash = hash' ∧ previous = previous' := by
  have h := Json.record_inj (Json.stringify_injective h) rfl (by simp)
  simp only [List.cons.injEq, Prod.mk.injEq, Option.some.injEq, Json.string.injEq, true_and, and_true] at h
  refine ⟨h.1, ?_⟩
  cases previous <;> cases previous' <;> simp_all [orNull, textJson]

lemma recordedHash_proposal (signature pem digest : String) :
    recordedHash (proposal signature pem digest) = some ("sha256", digest) := by
  have hspec : specHash (proposal signature pem digest) = some (hashJson digest) := by
    rw [specHash, proposal, Json.member_record (by simp) (List.mem_cons_of_mem _ (List.mem_cons_of_mem _ List.mem_cons_self)),
      Option.bind_some, Json.member_record (by simp) (List.mem_cons_of_mem _ List.mem_cons_self), Option.bind_some,
      Json.member_record (by simp) List.mem_cons_self]
  have halgorithm : text? (hashJson digest) "algorithm" = some "sha256" := text_record_some (by simp) (by simp)
  have hvalue : text? (hashJson digest) "value" = some digest := text_record_some (by simp) (by simp)
  rw [recordedHash, hspec]
  simp [halgorithm, hvalue]

end Submission

section Lookup

/-- What a request to the log comes to. -/
inductive Response where
  | failed (message : String)
  | answered (status : ℕ) (data : Json)

/-- An exception whose text is the runtime's own is told by what threw it. -/
inductive Thrown where
  | request (message : String)
  | bufferFrom
  | jsonParse

inductive InvalidReason where
  | noEntryUuid
  | lookupStatus (status : ℕ) (entryUuid : String)
  | missingBody
  | missingHash
  | algorithm (algorithm : Json)
  | mismatch
  | thrown (error : Thrown)

def InvalidReason.message : InvalidReason → Option String
  | .noEntryUuid => some "status PUBLISHED but no entryUuid stored"
  | .lookupStatus status entryUuid =>
    some ("Rekor lookup returned HTTP " ++ toString status ++ " for entry " ++ entryUuid)
  | .missingBody => some "Rekor entry response missing body"
  | .missingHash => some "Rekor entry body missing spec.data.hash"
  | .algorithm (.string name) => some ("unexpected hash algorithm " ++ name ++ " (expected sha256)")
  | .algorithm _ => none
  | .mismatch => some ("Rekor entry's recorded hash does not match sha256(\x7bcertificateHash, previousCertificateHash\x7d) "
      ++ "for this certificate -- either a different certificate was published under this uuid, or the log entry was "
      ++ "tampered with")
  | .thrown (.request message) => some message
  | .thrown _ => none

inductive RekorVerificationResult where
  | valid (entryUuid : String) (logIndex : Option Json) (rekorUrl : String)
  | invalid (reason : InvalidReason)
  | absent
  | recordedFailure

def truthyField (j : Option Json) (name : String) : Option Json :=
  (j.bind (·.member? name)).filter Json.isTruthy

def checkHash (digest : String) (storedHash : Option Json) : Except InvalidReason Unit :=
  match truthyField storedHash "algorithm", truthyField storedHash "value" with
  | some (.string "sha256"), some (.string value) => if value = digest then .ok () else .error .mismatch
  | some (.string "sha256"), some _ => .error .mismatch
  | some algorithm, some _ => .error (.algorithm algorithm)
  | _, _ => .error .missingHash

def checkBody (digest : String) : Json → Except InvalidReason Unit
  | .string body =>
    match Json.parse (String.ofList (Utf8.decode (Base64.decode body.toList))) with
    | some decoded => checkHash digest (specHash decoded)
    | none => .error (.thrown .jsonParse)
  | _ => .error (.thrown .bufferFrom)

/-- The answer is keyed by the entry's uuid, or by something else. -/
def findEntry (entryUuid : String) (data : Json) : Option Json :=
  match Json.present (data.member? entryUuid) with
  | some entry => some entry
  | none => data.values.head?

def checkResponse (digest entryUuid : String) : Response → Except InvalidReason Unit
  | .failed message => .error (.thrown (.request message))
  | .answered status data =>
    if status ≠ 200 then .error (.lookupStatus status entryUuid)
    else match truthyField (findEntry entryUuid data) "body" with
      | some body => checkBody digest body
      | none => .error .missingBody

def entryUrl (rekorUrl entryUuid : String) : String := rekorUrl ++ "/api/v1/log/entries/" ++ entryUuid

def verifyRekorEntry (sha256 : Sha256) (certificateHash : String) (previousCertificateHash : Option String)
    (rekorEntry : Option RekorLogEntryInfo) (get : String → Response) : RekorVerificationResult :=
  match rekorEntry with
  | none => .absent
  | some info =>
    match info.status with
    | .failed => .recordedFailure
    | .published =>
      match truthy info.entryUuid with
      | none => .invalid .noEntryUuid
      | some entryUuid =>
        match checkResponse (sha256.hex (payload certificateHash previousCertificateHash)) entryUuid
          (get (entryUrl info.rekorUrl entryUuid)) with
        | .ok () => .valid entryUuid info.logIndex info.rekorUrl
        | .error reason => .invalid reason

variable {digest entryUuid key body : String} {stored entry hashed : Json} {response : Response} {sha256 : Sha256}
  {certificateHash : String} {previousCertificateHash : Option String} {info : RekorLogEntryInfo}
  {get : String → Response}

lemma Sha256.hex_ne_empty (sha256 : Sha256) (text : String) : sha256.hex text ≠ "" := by
  intro h
  have hlength := sha256.length_hex text
  rw [h] at hlength
  contradiction

lemma findEntry_single (he : entry ≠ .null) : findEntry entryUuid (.object [(key, entry)]) = some entry := by
  rw [findEntry, Json.values_single, Json.member_object_cons]
  by_cases hk : entryUuid = key
  · rw [if_pos hk]
    cases entry with
    | null => contradiction
    | _ => rfl
  · rw [if_neg hk]
    rfl

lemma text_member {j : Json} {name text : String} (h : text? j name = some text) : j.member? name = some (.string text) := by
  rw [text?] at h
  split at h
  · rename_i s hs
    rw [hs, Option.some.inj h]
  · contradiction

/-- Of what a log entry records, the check accepts the SHA-256 digest that it is given, and nothing else. -/
lemma checkHash_ok_iff {algorithm value : String} (hr : recordedHash stored = some (algorithm, value)) (hd : digest ≠ "") :
    checkHash digest (specHash stored) = .ok () ↔ algorithm = "sha256" ∧ value = digest := by
  rw [recordedHash] at hr
  obtain ⟨hash, hhash, hr⟩ := Option.bind_eq_some_iff.mp hr
  obtain ⟨algorithm', halgorithm, hr⟩ := Option.bind_eq_some_iff.mp hr
  obtain ⟨value', hvalue, hr⟩ := Option.bind_eq_some_iff.mp hr
  obtain ⟨rfl, rfl⟩ := Prod.mk.inj (Option.some.inj hr)
  have hfield {name text : String} (ht : text? hash name = some text) :
      truthyField (some hash) name = if text = "" then none else some (.string text) := by
    rw [truthyField, Option.bind_some, text_member ht]
    by_cases he : text = "" <;> simp [Option.filter, Json.isTruthy, he]
  rw [checkHash, hhash, hfield halgorithm, hfield hvalue]
  by_cases ha : algorithm' = "sha256"
  · subst ha
    by_cases hv : value' = ""
    · subst hv
      simp [Ne.symm hd]
    · simp only [if_neg hv]
      by_cases heq : value' = digest <;> simp [heq]
  · by_cases he : algorithm' = "" <;> by_cases hv : value' = "" <;> simp [ha, he, hv]

end Lookup

end ChameleonVault.Evidence
