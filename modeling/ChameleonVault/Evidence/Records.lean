import ChameleonVault.Encoding.JsonRoundTrip

/-! What is kept of a timestamp and of a transparency-log entry, and the JSON file that a certificate
is stored in with them. -/

namespace ChameleonVault.Evidence

open Encoding
open Encoding.Json (record ofNat)

inductive TimestampStatus where
  | obtained | failed
  deriving DecidableEq

inductive PublicationStatus where
  | published | failed
  deriving DecidableEq

structure TsaTimestampInfo where
  status : TimestampStatus
  token : Option String := none
  timestamp : Option String := none
  tsaUrl : String
  attemptedAt : String
  error : Option String := none

structure RekorLogEntryInfo where
  status : PublicationStatus
  logIndex : Option Json := none
  entryUuid : Option String := none
  rekorUrl : String
  attemptedAt : String
  error : Option String := none

structure CertificateWrapper where
  certificate : String
  userId : String
  deletionRequestId : String
  timestamp : String
  hash : String
  previousCertificateHash : Option String
  chainSequence : Option ℕ
  tsaTimestamp : Option TsaTimestampInfo
  rekorEntry : Option RekorLogEntryInfo

section Writing

def TimestampStatus.name : TimestampStatus → String
  | .obtained => "OBTAINED"
  | .failed => "FAILED"

def PublicationStatus.name : PublicationStatus → String
  | .published => "PUBLISHED"
  | .failed => "FAILED"

def textJson (text : Option String) : Option Json := text.map .string

/-- `?? null` -/
def orNull (j : Option Json) : Json := j.getD .null

def TsaTimestampInfo.fields (info : TsaTimestampInfo) : List (String × Option Json) :=
  [("status", some (.string info.status.name)), ("token", textJson info.token),
    ("timestamp", textJson info.timestamp), ("tsaUrl", some (.string info.tsaUrl)),
    ("attemptedAt", some (.string info.attemptedAt)), ("error", textJson info.error)]

def TsaTimestampInfo.toJson (info : TsaTimestampInfo) : Json := record info.fields

def RekorLogEntryInfo.fields (info : RekorLogEntryInfo) : List (String × Option Json) :=
  [("status", some (.string info.status.name)), ("entryUuid", textJson info.entryUuid),
    ("logIndex", info.logIndex), ("rekorUrl", some (.string info.rekorUrl)),
    ("attemptedAt", some (.string info.attemptedAt)), ("error", textJson info.error)]

def RekorLogEntryInfo.toJson (info : RekorLogEntryInfo) : Json := record info.fields

def CertificateWrapper.fields (w : CertificateWrapper) : List (String × Option Json) :=
  [("certificate", some (.string w.certificate)), ("userId", some (.string w.userId)),
    ("deletionRequestId", some (.string w.deletionRequestId)), ("timestamp", some (.string w.timestamp)),
    ("hash", some (.string w.hash)), ("previousCertificateHash", some (orNull (textJson w.previousCertificateHash))),
    ("chainSequence", w.chainSequence.map ofNat),
    ("tsaTimestamp", some (orNull (w.tsaTimestamp.map (·.toJson)))),
    ("rekorEntry", some (orNull (w.rekorEntry.map (·.toJson))))]

def CertificateWrapper.toJson (w : CertificateWrapper) : Json := record w.fields

def CertificateWrapper.bytes (w : CertificateWrapper) : List UInt8 := Utf8.encode (Json.write w.toJson)

end Writing

section Reading

def text? (j : Json) (name : String) : Option String :=
  match j.member? name with
  | some (.string s) => some s
  | _ => none

def nat? (j : Json) (name : String) : Option ℕ :=
  match j.member? name with
  | some (.number n) => some n.whole
  | _ => none

def TimestampStatus.ofName (name : String) : Option TimestampStatus :=
  if name = "OBTAINED" then some .obtained else if name = "FAILED" then some .failed else none

def PublicationStatus.ofName (name : String) : Option PublicationStatus :=
  if name = "PUBLISHED" then some .published else if name = "FAILED" then some .failed else none

def TsaTimestampInfo.ofJson (j : Json) : Option TsaTimestampInfo := do
  let status ← (text? j "status").bind TimestampStatus.ofName
  let tsaUrl ← text? j "tsaUrl"
  let attemptedAt ← text? j "attemptedAt"
  return { status, token := text? j "token", timestamp := text? j "timestamp", tsaUrl, attemptedAt, error := text? j "error" }

def RekorLogEntryInfo.ofJson (j : Json) : Option RekorLogEntryInfo := do
  let status ← (text? j "status").bind PublicationStatus.ofName
  let rekorUrl ← text? j "rekorUrl"
  let attemptedAt ← text? j "attemptedAt"
  return { status, logIndex := j.member? "logIndex", entryUuid := text? j "entryUuid", rekorUrl, attemptedAt,
           error := text? j "error" }

def CertificateWrapper.ofJson (j : Json) : Option CertificateWrapper := do
  let certificate ← text? j "certificate"
  let userId ← text? j "userId"
  let deletionRequestId ← text? j "deletionRequestId"
  let timestamp ← text? j "timestamp"
  let hash ← text? j "hash"
  return { certificate, userId, deletionRequestId, timestamp, hash
           previousCertificateHash := text? j "previousCertificateHash"
           chainSequence := nat? j "chainSequence"
           tsaTimestamp := (j.member? "tsaTimestamp").bind TsaTimestampInfo.ofJson
           rekorEntry := (j.member? "rekorEntry").bind RekorLogEntryInfo.ofJson }

def CertificateWrapper.ofBytes (bs : List UInt8) : Option CertificateWrapper :=
  (Json.parse (String.ofList (Utf8.decode bs))).bind CertificateWrapper.ofJson

end Reading

section RoundTrip

variable {fields : List (String × Option Json)} {name : String} {text : Option String} {s : String}

lemma text_record (hd : (fields.map Prod.fst).Nodup) (hmem : (name, textJson text) ∈ fields) :
    text? (record fields) name = text := by
  rw [text?, Json.member_record hd hmem, textJson]
  cases text <;> rfl

lemma text_record_some (hd : (fields.map Prod.fst).Nodup) (hmem : (name, some (Json.string s)) ∈ fields) :
    text? (record fields) name = some s := @text_record _ _ (some s) hd hmem

lemma text_record_null (hd : (fields.map Prod.fst).Nodup) (hmem : (name, some (orNull (textJson text))) ∈ fields) :
    text? (record fields) name = text := by
  rw [text?, Json.member_record hd hmem, textJson]
  cases text <;> rfl

lemma nat_record {n : Option ℕ} (hd : (fields.map Prod.fst).Nodup) (hmem : (name, n.map ofNat) ∈ fields) :
    nat? (record fields) name = n := by
  rw [nat?, Json.member_record hd hmem]
  cases n <;> rfl

@[simp] lemma TimestampStatus.ofName_name (status : TimestampStatus) : ofName status.name = some status := by
  cases status <;> rfl

@[simp] lemma PublicationStatus.ofName_name (status : PublicationStatus) : ofName status.name = some status := by
  cases status <;> rfl

lemma TsaTimestampInfo.ofJson_toJson (info : TsaTimestampInfo) : ofJson info.toJson = some info := by
  have hd : (info.fields.map Prod.fst).Nodup := by simp [fields]
  have hstatus : text? info.toJson "status" = some info.status.name := text_record_some hd (by simp [fields])
  have htoken : text? info.toJson "token" = info.token := text_record hd (by simp [fields])
  have htime : text? info.toJson "timestamp" = info.timestamp := text_record hd (by simp [fields])
  have hurl : text? info.toJson "tsaUrl" = some info.tsaUrl := text_record_some hd (by simp [fields])
  have hat : text? info.toJson "attemptedAt" = some info.attemptedAt := text_record_some hd (by simp [fields])
  have herror : text? info.toJson "error" = info.error := text_record hd (by simp [fields])
  simp [ofJson, hstatus, htoken, htime, hurl, hat, herror]

lemma RekorLogEntryInfo.ofJson_toJson (info : RekorLogEntryInfo) : ofJson info.toJson = some info := by
  have hd : (info.fields.map Prod.fst).Nodup := by simp [fields]
  have hstatus : text? info.toJson "status" = some info.status.name := text_record_some hd (by simp [fields])
  have huuid : text? info.toJson "entryUuid" = info.entryUuid := text_record hd (by simp [fields])
  have hindex : info.toJson.member? "logIndex" = info.logIndex := Json.member_record hd (by simp [fields])
  have hurl : text? info.toJson "rekorUrl" = some info.rekorUrl := text_record_some hd (by simp [fields])
  have hat : text? info.toJson "attemptedAt" = some info.attemptedAt := text_record_some hd (by simp [fields])
  have herror : text? info.toJson "error" = info.error := text_record hd (by simp [fields])
  simp [ofJson, hstatus, huuid, hindex, hurl, hat, herror]

lemma CertificateWrapper.ofJson_toJson (w : CertificateWrapper) : ofJson w.toJson = some w := by
  have hd : (w.fields.map Prod.fst).Nodup := by simp [fields]
  have hcertificate : text? w.toJson "certificate" = some w.certificate := text_record_some hd (by simp [fields])
  have huser : text? w.toJson "userId" = some w.userId := text_record_some hd (by simp [fields])
  have hid : text? w.toJson "deletionRequestId" = some w.deletionRequestId := text_record_some hd (by simp [fields])
  have htime : text? w.toJson "timestamp" = some w.timestamp := text_record_some hd (by simp [fields])
  have hhash : text? w.toJson "hash" = some w.hash := text_record_some hd (by simp [fields])
  have hprevious : text? w.toJson "previousCertificateHash" = w.previousCertificateHash :=
    text_record_null hd (by simp [fields])
  have hsequence : nat? w.toJson "chainSequence" = w.chainSequence := nat_record hd (by simp [fields])
  have htsa : (w.toJson.member? "tsaTimestamp").bind TsaTimestampInfo.ofJson = w.tsaTimestamp := by
    have hmember : w.toJson.member? "tsaTimestamp" = some (orNull (w.tsaTimestamp.map (·.toJson))) :=
      Json.member_record hd (by simp [fields])
    rw [hmember]
    cases w.tsaTimestamp with
    | none => rfl
    | some info => exact info.ofJson_toJson
  have hrekor : (w.toJson.member? "rekorEntry").bind RekorLogEntryInfo.ofJson = w.rekorEntry := by
    have hmember : w.toJson.member? "rekorEntry" = some (orNull (w.rekorEntry.map (·.toJson))) :=
      Json.member_record hd (by simp [fields])
    rw [hmember]
    cases w.rekorEntry with
    | none => rfl
    | some info => exact info.ofJson_toJson
  simp [ofJson, hcertificate, huser, hid, htime, hhash, hprevious, hsequence, htsa, hrekor]

lemma CertificateWrapper.ofBytes_bytes (w : CertificateWrapper) : ofBytes w.bytes = some w := by
  rw [ofBytes, bytes, Utf8.decode_encode]
  have hparse : Json.parse (String.ofList (Json.write w.toJson)) = some w.toJson := Json.parse_stringify w.toJson
  rw [hparse, Option.bind_some, ofJson_toJson]

end RoundTrip

end ChameleonVault.Evidence
