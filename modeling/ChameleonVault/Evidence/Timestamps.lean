import ChameleonVault.Encoding.Base64
import ChameleonVault.Encoding.Der
import ChameleonVault.Encoding.Hex
import ChameleonVault.Encoding.IsoDate
import ChameleonVault.Evidence.Records
import ChameleonVault.KeyRegistry.KeyMetadata

/-! Timestamps of a certificate's hash by an outside authority: how one is obtained, and how the
token that was stored is checked against the certificate. -/

namespace ChameleonVault.Evidence

open Encoding
open Encoding.IsoDate (toISOString)
open KeyRegistry (truthy)

section Tokens

structure ContentInfo where
  contentType : String
  content : List UInt8

structure TimeStampResp where
  status : ℕ
  timeStampToken : Option ContentInfo

structure Attribute where
  attrType : String
  attrValues : List (List UInt8)

structure SignerInfo where
  digestAlgorithm : String
  signatureAlgorithm : String
  signedAttrs : Option (List Attribute)
  signature : List UInt8

/-- An embedded certificate that is no plain one has no bytes here. -/
structure SignedData where
  eContent : Option (List UInt8)
  certificates : Option (List (Option (List UInt8)))
  signerInfos : List SignerInfo

structure TstInfo where
  hashedMessage : List UInt8
  nonce : Option (List UInt8)
  genTime : ℕ

/-- How the parsers read bytes; what they throw has a text of their own. No bytes are no response. -/
structure Asn1 where
  timeStampResp : List UInt8 → Except String TimeStampResp
  signedData : List UInt8 → Except String SignedData
  tstInfo : List UInt8 → Except String TstInfo
  fromBER : List UInt8 → Option Der
  timeStampResp_nil (resp : TimeStampResp) : timeStampResp [] ≠ .ok resp

/-- The runtime's cryptography, over its keys and its X.509 certificates. -/
structure Crypto (Key X509 : Type) where
  hash : String → List UInt8 → List UInt8
  verify : String → List UInt8 → Key → List UInt8 → Bool
  ofDer : List UInt8 → Except String X509
  ofPem : String → Except String X509
  publicKey : X509 → Key
  validFrom : X509 → ℕ
  validTo : X509 → ℕ
  checkIssued : X509 → X509 → Bool
  verifyCertificate : X509 → Key → Bool

def isGranted (status : ℕ) : Bool := status = 0 || status = 1

end Tokens

section Client

inductive TsaReply where
  | failed (message : String)
  | answered (status : ℕ) (data : List UInt8)

def failedTimestamp (tsaUrl attemptedAt error : String) : TsaTimestampInfo :=
  { status := .failed, tsaUrl, attemptedAt, error := some error }

/-- The top bit is cleared, so that the number is not read as negative. -/
def clearTopBit : List UInt8 → List UInt8
  | [] => []
  | b :: bs => (b &&& 0x7f) :: bs

/-- What the response says, or why it is no answer to the request. -/
def readAnswer (asn : Asn1) (digest nonce data : List UInt8) : Except String TstInfo := do
  let resp ← asn.timeStampResp data
  if isGranted resp.status = false then throw ("PKIStatus " ++ toString resp.status)
  else match resp.timeStampToken with
    | none => throw "missing timeStampToken"
    | some token =>
      let signedData ← asn.signedData token.content
      match signedData.eContent with
      | none => throw "no TSTInfo content in response"
      | some eContent =>
        let tstInfo ← asn.tstInfo eContent
        if tstInfo.hashedMessage ≠ digest then throw "messageImprint mismatch"
        else if tstInfo.nonce.any (· ≠ nonce) then throw "nonce mismatch"
        else return tstInfo

def requestTimestamp (asn : Asn1) (tsaUrl attemptedAt certificateHashHex : String) (randomBytes : List UInt8)
    (post : List UInt8 → List UInt8 → TsaReply) : TsaTimestampInfo :=
  let digest := Hex.decode certificateHashHex.toList
  let nonce := clearTopBit randomBytes
  match post digest nonce with
  | .failed message => failedTimestamp tsaUrl attemptedAt message
  | .answered status data =>
    if status ≠ 200 then failedTimestamp tsaUrl attemptedAt ("HTTP " ++ toString status)
    else match readAnswer asn digest nonce data with
      | .error error => failedTimestamp tsaUrl attemptedAt error
      | .ok tstInfo =>
        { status := .obtained
          token := some (String.ofList (Base64.encode data))
          timestamp := some (toISOString tstInfo.genTime)
          tsaUrl := tsaUrl
          attemptedAt := attemptedAt }

end Client

section SignedAttributes

/-- `valueBlock.value` -/
def children : Der → Except String (List Der)
  | .constructed _ children => .ok children
  | .primitive _ _ => .error "TypeError"

def child (d : Der) (i : ℕ) : Except String Der := do
  let children ← children d
  match children[i]? with
  | some d => return d
  | none => throw "TypeError"

def findChildByContextTag (ds : List Der) (contextTag : Tag) : Option Der := ds.find? fun d => d.tag = contextTag

def firstSignerInfo (d : Der) : Except String Der := do
  let contentInfo ← child d 1
  let wrapper ← child contentInfo 1
  let signedData ← child wrapper 0
  let fields ← children signedData
  match fields.getLast? with
  | some signerInfos => child signerInfos 0
  | none => throw "TypeError"

def withFirstOctet (octet : UInt8) (bs : List UInt8) : List UInt8 := bs.set 0 octet

def reencode : Option Der → Except String (List UInt8)
  | none => throw "SignerInfo has no [0] signedAttrs element"
  | some signedAttrs => return withFirstOctet 0x31 (Der.encode signedAttrs)

/-- The attributes under the tag of a set, which is what is signed; their octets stay as they are. -/
def extractReencodedSignedAttrs (asn : Asn1) (data : List UInt8) : Except String (List UInt8) := do
  match asn.fromBER data with
  | none => throw "failed to parse TimeStampResp DER"
  | some d =>
    let signerInfo ← firstSignerInfo d
    let fields ← children signerInfo
    reencode (findChildByContextTag fields Der.contextTag0)

end SignedAttributes

section Verification

inductive TsaReason where
  | noToken
  | status (status : ℕ)
  | noTimeStampToken
  | contentType (contentType : String)
  | noContent
  | messageImprint
  | signerInfos (found : ℕ)
  | algorithms (digest signature : String)
  | noSignedAttrs
  | noMessageDigest
  | unparsedMessageDigest
  | messageDigest
  | noCertificate
  | notPlainCertificate
  | signature
  | chain
  | validity
  | thrown (message : String)

def TsaReason.message : TsaReason → String
  | .noToken => "status OBTAINED but no token stored"
  | .status n => "stored token has non-granted PKIStatus " ++ toString n
  | .noTimeStampToken => "stored token has no timeStampToken"
  | .contentType oid => "unexpected contentType " ++ oid
  | .noContent => "no TSTInfo content in token"
  | .messageImprint => "messageImprint does not match sha256(certificate)"
  | .signerInfos found => "expected exactly 1 signerInfo, found " ++ toString found
  | .algorithms digestOid signatureOid =>
    "unsupported algorithm OID (digest=" ++ digestOid ++ ", signature=" ++ signatureOid ++ ")"
  | .noSignedAttrs => "SignerInfo has no signedAttrs"
  | .noMessageDigest => "signedAttrs missing messageDigest attribute"
  | .unparsedMessageDigest => "could not parse messageDigest attribute value"
  | .messageDigest => "messageDigest attribute does not match hash(eContent)"
  | .noCertificate => "no signing certificate embedded in token"
  | .notPlainCertificate => "embedded certificate is not a plain X.509 Certificate"
  | .signature => "CMS signature verification failed"
  | .chain => "leaf certificate does not chain to the pinned root CA"
  | .validity => "genTime falls outside the signing certificate's validity window"
  | .thrown message => message

inductive TsaVerificationResult where
  | valid (genTime : ℕ)
  | invalid (reason : TsaReason)
  | absent
  | recordedFailure

def messageDigestAttrOid : String := "1.2.840.113549.1.9.4"

def signedDataOid : String := "1.2.840.113549.1.7.2"

def digestName (oid : String) : Option String :=
  [("2.16.840.1.101.3.4.2.1", "sha256"), ("2.16.840.1.101.3.4.2.2", "sha384"), ("2.16.840.1.101.3.4.2.3", "sha512"),
    ("1.2.840.10045.4.3.2", "sha256"), ("1.2.840.10045.4.3.3", "sha384"), ("1.2.840.10045.4.3.4", "sha512"),
    ("1.2.840.113549.1.1.11", "sha256"), ("1.2.840.113549.1.1.12", "sha384"),
    ("1.2.840.113549.1.1.13", "sha512")].lookup oid

variable {Key X509 : Type}

def lift {α : Type} (x : Except String α) : Except TsaReason α := x.mapError .thrown

/-- What the token says, checked against the certificate. -/
def readToken (asn : Asn1) (k : Crypto Key X509) (certificateJwt : String) (data : List UInt8) :
    Except TsaReason (SignedData × List UInt8 × TstInfo) := do
  let resp ← lift (asn.timeStampResp data)
  if isGranted resp.status = false then throw (.status resp.status)
  else match resp.timeStampToken with
    | none => throw .noTimeStampToken
    | some token =>
      if token.contentType ≠ signedDataOid then throw (.contentType token.contentType)
      else do
        let signedData ← lift (asn.signedData token.content)
        match signedData.eContent with
        | none => throw .noContent
        | some eContent =>
          let tstInfo ← lift (asn.tstInfo eContent)
          if tstInfo.hashedMessage ≠ k.hash "sha256" (Utf8.encode certificateJwt.toList) then throw .messageImprint
          else return (signedData, eContent, tstInfo)

/-- The digest attribute of the only signer must be that of the content. -/
def checkSigner (asn : Asn1) (k : Crypto Key X509) (eContent : List UInt8) (signerInfos : List SignerInfo) :
    Except TsaReason (SignerInfo × String) :=
  match signerInfos with
  | [signerInfo] =>
    match digestName signerInfo.digestAlgorithm, digestName signerInfo.signatureAlgorithm with
    | some digestAlgName, some sigAlgName =>
      match signerInfo.signedAttrs.getD [] with
      | [] => .error .noSignedAttrs
      | signedAttrs =>
        match signedAttrs.find? fun a => a.attrType = messageDigestAttrOid with
        | none => .error .noMessageDigest
        | some messageDigestAttr =>
          match messageDigestAttr.attrValues.map asn.fromBER with
          | [] => .error (.thrown "TypeError")
          | none :: _ => .error .unparsedMessageDigest
          | some value :: _ =>
            if value.content ≠ k.hash digestAlgName eContent then .error .messageDigest
            else .ok (signerInfo, sigAlgName)
    | _, _ => .error (.algorithms signerInfo.digestAlgorithm signerInfo.signatureAlgorithm)
  | signerInfos => .error (.signerInfos signerInfos.length)

def leafCertificate (k : Crypto Key X509) (signedData : SignedData) : Except TsaReason X509 :=
  match signedData.certificates.getD [] with
  | [] => .error .noCertificate
  | none :: _ => .error .notPlainCertificate
  | some der :: _ => lift (k.ofDer der)

/-- The leaf must come from the pinned root and have been valid at the time of the timestamp. -/
def checkTrust (k : Crypto Key X509) (leaf : X509) (pinnedRootCaPem : String) (genTime : ℕ) : Except TsaReason Unit := do
  let root ← lift (k.ofPem pinnedRootCaPem)
  if k.checkIssued leaf root = false ∨ k.verifyCertificate leaf (k.publicKey root) = false then throw .chain
  else if genTime < k.validFrom leaf ∨ k.validTo leaf < genTime then throw .validity
  else return ()

def checkToken (asn : Asn1) (k : Crypto Key X509) (certificateJwt pinnedRootCaPem : String) (data : List UInt8) :
    Except TsaReason ℕ := do
  let (signedData, eContent, tstInfo) ← readToken asn k certificateJwt data
  let (signerInfo, sigAlgName) ← checkSigner asn k eContent signedData.signerInfos
  let signedAttrs ← lift (extractReencodedSignedAttrs asn data)
  let leaf ← leafCertificate k signedData
  if k.verify sigAlgName signedAttrs (k.publicKey leaf) signerInfo.signature = false then throw .signature
  else do
    checkTrust k leaf pinnedRootCaPem tstInfo.genTime
    return tstInfo.genTime

def verdict : Except TsaReason ℕ → TsaVerificationResult
  | .ok genTime => .valid genTime
  | .error reason => .invalid reason

def verifyTsaTimestamp (asn : Asn1) (k : Crypto Key X509) (certificateJwt : String) (tsaTimestamp : Option TsaTimestampInfo)
    (pinnedRootCaPem : String) : TsaVerificationResult :=
  match tsaTimestamp with
  | none => .absent
  | some info =>
    match info.status with
    | .failed => .recordedFailure
    | .obtained =>
      match truthy info.token with
      | none => .invalid .noToken
      | some token => verdict (checkToken asn k certificateJwt pinnedRootCaPem (Base64.decode token.toList))

end Verification

end ChameleonVault.Evidence
