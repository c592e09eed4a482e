import ChameleonVault.Encoding.Base64
import ChameleonVault.Encoding.IsoDate
import ChameleonVault.Encoding.JsonRoundTrip
import ChameleonVault.Signer.Server

/-! The text of a signed certificate: its header and its claims as JSON, each in base64url, and the
signature over both. -/

namespace ChameleonVault.Signer

open Deletion Encoding
open Encoding.Json (record ofNat)
open Encoding.IsoDate (toISOString)

section Claims

def statusName : LineageStatus → String
  | .erased => "ERASED"
  | .confirmedAbsent => "CONFIRMED_ABSENT"
  | .pending => "PENDING"
  | .failed => "FAILED"

def strategyName : SourceRedactionStrategy → String
  | .none => "NONE"
  | .redactInPlace => "REDACT_IN_PLACE"
  | .shadowCopy => "SHADOW_COPY"
  | .encryptedCopy => "ENCRYPTED_COPY"

def dateJson (date : KeyRegistry.Date) : Json := .string (toISOString date)

def nullable : Option Json → Json
  | some j => j
  | none => .null

def lineageItemJson (item : LineageItem) : Json :=
  record [("system", some (.string item.system)), ("status", some (.string (statusName item.status))),
    ("timestamp", some (dateJson item.timestamp))]

def backupImmunityItemJson (item : BackupImmunityItem) : Json :=
  record [("resourceId", some (.string item.resourceId)), ("strategy", some (.string (strategyName item.strategy))),
    ("backupImmune", some (.bool item.backupImmune)), ("redactedAt", item.redactedAt.map dateJson),
    ("immuneAsOf", item.immuneAsOf.map dateJson), ("reason", some (.string item.reason))]

def ghostDataJson (item : GhostDataSummary) : Json :=
  record [("scope", some (.string (if item.userLinked then "USER_LINKED" else "RESOURCE_LEVEL"))),
    ("resourceId", some (.string item.resourceId)), ("system", some (.string item.system)),
    ("column", item.column.map .string), ("pattern", item.pattern.map .string), ("count", item.count.map ofNat),
    ("scanner", item.scanner.map .string), ("lastSeen", some (.string item.lastSeen))]

def lineageCoverageJson (coverage : LineageCoverage) : Json :=
  record [("destinationsChecked", some (ofNat coverage.destinationsChecked)),
    ("destinationsSucceeded", some (ofNat coverage.destinationsSucceeded)),
    ("knownDestinationTypes", some (.array (coverage.knownDestinationTypes.map .string)))]

def backupImmunityJson (claims : Claims) : Json :=
  record [("cryptoShredCoverage", some (.string claims.cryptoShredCoverage)),
    ("sourceRedactionExceptions", some (.array (claims.sourceRedactionExceptions.map backupImmunityItemJson))),
    ("timeTravelCeilingHours", some (ofNat claims.timeTravelCeilingHours)),
    ("timeTravelCaveat", some (.string claims.timeTravelCaveat))]

def claimsJson (p : DestructionCertificateClaims) : Json :=
  record [("iss", some (.string p.claims.iss)), ("sub", some (.string p.claims.sub)),
    ("tenantId", some (.string p.claims.tenantId)), ("tenant_id", some (.string p.claims.tenantId)),
    ("user_id", some (.string p.claims.sub)), ("keyDestructionStatus", some (.string p.claims.keyDestructionStatus)),
    ("keyDestructionMethod", some (.string p.claims.keyDestructionMethod)),
    ("warehouseData", some (.string p.claims.warehouseData)), ("iat", some (ofNat p.claims.iat)),
    ("jti", some (.string p.claims.jti)), ("shredDate", some (dateJson p.claims.shredDate)),
    ("shred_date", some (dateJson p.claims.shredDate)), ("keyFingerprint", some (.string p.claims.keyFingerprint)),
    ("lineageSummary", some (.array (p.claims.lineageSummary.map lineageItemJson))),
    ("backupImmunity", some (backupImmunityJson p.claims)),
    ("lineageCoverage", some (lineageCoverageJson p.claims.lineageCoverage)),
    ("ghostDataSummary", some (.array (p.claims.ghostDataSummary.map ghostDataJson))),
    ("ghost_data_summary", some (.array (p.claims.ghostDataSummary.map ghostDataJson))),
    ("ghostDataScanCoverage", some (.string p.claims.ghostDataScanCoverage)),
    ("previousCertificateHash", some (nullable (p.previousCertificateHash.map .string))),
    ("chainSequence", some (nullable (p.chainSequence.map ofNat)))]

variable {items items' : List Json} {hash hash' : Option String} {sequence sequence' : Option ℕ}

lemma statusName_injective : Function.Injective statusName := by
  intro s s' h
  cases s <;> cases s' <;> first | rfl | exact absurd h (by decide)

lemma strategyName_injective : Function.Injective strategyName := by
  intro s s' h
  cases s <;> cases s' <;> first | rfl | exact absurd h (by decide)

lemma string_injective : Function.Injective Json.string := fun _ _ h => Json.string.inj h

lemma dateJson_injective : Function.Injective dateJson :=
  fun _ _ h => IsoDate.toISOString_injective (Json.string.inj h)

lemma nullable_string (h : nullable (hash.map .string) = nullable (hash'.map .string)) : hash = hash' := by
  cases hash <;> cases hash' <;> simp_all [nullable]

lemma nullable_ofNat (h : nullable (sequence.map ofNat) = nullable (sequence'.map ofNat)) : sequence = sequence' := by
  cases sequence with
  | none =>
    cases sequence' with
    | none => rfl
    | some n => contradiction
  | some n =>
    cases sequence' with
    | none => contradiction
    | some m => exact congrArg some (Json.ofNat_injective h)

lemma array_map_injective {α : Type} {f : α → Json} (hf : Function.Injective f) {as as' : List α}
    (h : Json.array (as.map f) = .array (as'.map f)) : as = as' :=
  List.map_injective_iff.mpr hf (Json.array.inj h)

lemma lineageItemJson_injective : Function.Injective lineageItemJson := by
  rintro ⟨system, status, timestamp⟩ ⟨system', status', timestamp'⟩ h
  have h := Json.record_inj h rfl (by simp)
  simp only [List.cons.injEq, Prod.mk.injEq, Option.some.injEq, Json.string.injEq, true_and, and_true] at h
  obtain ⟨rfl, hstatus, htime⟩ := h
  rw [statusName_injective hstatus, dateJson_injective htime]

lemma backupImmunityItemJson_injective : Function.Injective backupImmunityItemJson := by
  rintro ⟨resourceId, strategy, backupImmune, redactedAt, immuneAsOf, reason⟩
    ⟨resourceId', strategy', backupImmune', redactedAt', immuneAsOf', reason'⟩ h
  have h := Json.record_inj h rfl (by simp)
  simp only [List.cons.injEq, Prod.mk.injEq, Option.some.injEq, Json.string.injEq, Json.bool.injEq, true_and,
    and_true] at h
  obtain ⟨rfl, hstrategy, rfl, hredacted, himmune, rfl⟩ := h
  rw [strategyName_injective hstrategy, Option.map_injective dateJson_injective hredacted,
    Option.map_injective dateJson_injective himmune]

lemma ghostDataJson_injective : Function.Injective ghostDataJson := by
  rintro ⟨userLinked, resourceId, system, column, pattern, count, scanner, lastSeen⟩
    ⟨userLinked', resourceId', system', column', pattern', count', scanner', lastSeen'⟩ h
  have h := Json.record_inj h rfl (by simp)
  simp only [List.cons.injEq, Prod.mk.injEq, Option.some.injEq, Json.string.injEq, true_and, and_true] at h
  obtain ⟨hscope, rfl, rfl, hcolumn, hpattern, hcount, hscanner, rfl⟩ := h
  have hlinked : userLinked = userLinked' := by
    cases userLinked <;> cases userLinked' <;> simp_all
  rw [hlinked, Option.map_injective string_injective hcolumn, Option.map_injective string_injective hpattern,
    Option.map_injective Json.ofNat_injective hcount, Option.map_injective string_injective hscanner]

lemma lineageCoverageJson_injective : Function.Injective lineageCoverageJson := by
  rintro ⟨destinationsChecked, destinationsSucceeded, types⟩ ⟨destinationsChecked', destinationsSucceeded', types'⟩ h
  have h := Json.record_inj h rfl (by simp)
  simp only [List.cons.injEq, Prod.mk.injEq, Option.some.injEq, true_and, and_true] at h
  obtain ⟨hchecked, hsucceeded, htypes⟩ := h
  rw [Json.ofNat_injective hchecked, Json.ofNat_injective hsucceeded, array_map_injective string_injective htypes]

lemma backupImmunityJson_fields {claims claims' : Claims} (h : backupImmunityJson claims = backupImmunityJson claims') :
    claims.cryptoShredCoverage = claims'.cryptoShredCoverage ∧
      claims.sourceRedactionExceptions = claims'.sourceRedactionExceptions ∧
      claims.timeTravelCeilingHours = claims'.timeTravelCeilingHours ∧
      claims.timeTravelCaveat = claims'.timeTravelCaveat := by
  have h := Json.record_inj h rfl (by simp)
  simp only [List.cons.injEq, Prod.mk.injEq, Option.some.injEq, Json.string.injEq, true_and, and_true] at h
  obtain ⟨hcoverage, hexceptions, hhours, hcaveat⟩ := h
  exact ⟨hcoverage, array_map_injective backupImmunityItemJson_injective hexceptions, Json.ofNat_injective hhours, hcaveat⟩

lemma claimsJson_injective : Function.Injective claimsJson := by
  rintro ⟨claims, hash, sequence⟩ ⟨claims', hash', sequence'⟩ h
  have h := Json.record_inj h rfl (by simp)
  simp only [List.cons.injEq, Prod.mk.injEq, Option.some.injEq, Json.string.injEq, true_and, and_true] at h
  obtain ⟨hiss, hsub, htenant, -, -, hstatus, hmethod, hdata, hiat, hjti, hshred, -, hfinger, hlineage, himmunity,
    hcoverage, hghost, -, hscan, hhash, hsequence⟩ := h
  obtain ⟨hcrypto, hexceptions, hhours, hcaveat⟩ := backupImmunityJson_fields himmunity
  have hclaims : claims = claims' := by
    rw [Claims.mk.injEq]
    exact ⟨hiss, hsub, htenant, hstatus, hmethod, hdata, Json.ofNat_injective hiat, hjti, dateJson_injective hshred,
      hfinger, array_map_injective lineageItemJson_injective hlineage, hcrypto, hexceptions, hhours, hcaveat,
      lineageCoverageJson_injective hcoverage, array_map_injective ghostDataJson_injective hghost, hscan⟩
  rw [hclaims, nullable_string hhash, nullable_ofNat hsequence]

end Claims

section Tokens

def segment (j : Json) : List Char := Base64.encodeUrl (Utf8.encode (Json.write j))

def readSegment (cs : List Char) : Option Json := Json.parse (String.ofList (Utf8.decode (Base64.decode cs)))

def headerJson (kid : String) : Json :=
  record [("alg", some (.string "PS256")), ("typ", some (.string "JWT")), ("kid", some (.string kid))]

/-- What the key signs. -/
def unsignedToken (payload : DestructionCertificateClaims) (kid : String) : List Char :=
  segment (headerJson kid) ++ '.' :: segment (claimsJson payload)

def token (c : SignedCertificate) : String :=
  String.ofList (unsignedToken c.payload c.kid ++ '.' :: c.signature.toList)

variable {j j' : Json} {rest rest' : List Char} {c : SignedCertificate} {p p' : DestructionCertificateClaims}
  {kid kid' : String}

lemma readSegment_segment (j : Json) : readSegment (segment j) = some j := by
  rw [readSegment, segment, Base64.decode_encodeUrl, Utf8.decode_encode]
  exact Json.parse_stringify j

lemma segment_injective : Function.Injective segment := by
  intro j j' h
  have hread := readSegment_segment j
  rw [h, readSegment_segment] at hread
  exact (Option.some.inj hread).symm

lemma segment_upTo (h : segment j ++ '.' :: rest = segment j' ++ '.' :: rest') : j = j' ∧ rest = rest' := by
  obtain ⟨heq, hrest⟩ := IsoDate.upTo_injective (Base64.encodeUrl_no_dot _) (Base64.encodeUrl_no_dot _) h
  exact ⟨segment_injective heq, hrest⟩

lemma headerJson_injective : Function.Injective headerJson := by
  intro kid kid' h
  have h := Json.record_inj h rfl (by simp)
  simpa using h

lemma token_injective : Function.Injective token := by
  rintro ⟨payload, kid, signature⟩ ⟨payload', kid', signature'⟩ h
  have h := String.ofList_injective h
  simp only [unsignedToken, List.append_assoc, List.cons_append] at h
  obtain ⟨hheader, h⟩ := segment_upTo h
  obtain ⟨hpayload, h⟩ := segment_upTo h
  rw [headerJson_injective hheader, claimsJson_injective hpayload, String.toList_injective h]

end Tokens

end ChameleonVault.Signer
