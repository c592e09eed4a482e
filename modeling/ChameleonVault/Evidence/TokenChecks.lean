import ChameleonVault.Evidence.Timestamps

/-! What the check of a timestamp token comes to: for tokens that were obtained for a certificate, and
for tokens of an honest authority, by how they identify their signer. -/

namespace ChameleonVault.Evidence

open Encoding
open Encoding.IsoDate (toISOString)
open KeyRegistry (truthy)

variable {Key X509 : Type} {asn : Asn1} {k : Crypto Key X509} {data : List UInt8} {certificateJwt pinnedRootCaPem : String}

section Structure

inductive SignerIdentifier where
  | issuerAndSerialNumber (fields : List Der)
  | subjectKeyIdentifier (keyIdentifier : List UInt8)

def SignerIdentifier.toDer : SignerIdentifier → Der
  | issuerAndSerialNumber fields => .constructed Der.sequenceTag fields
  | subjectKeyIdentifier keyIdentifier => .primitive Der.contextTag0 keyIdentifier

structure SignerInfoFields where
  version : List UInt8
  sid : SignerIdentifier
  digestAlgorithm : List Der
  signedAttrs : Option (List Der)
  signatureAlgorithm : List Der
  signature : List UInt8
  unsignedAttrs : Option (List Der)

def attributes (tag : Tag) (attrs : Option (List Der)) : List Der :=
  match attrs with
  | some attrs => [.constructed tag attrs]
  | none => []

def SignerInfoFields.toList (s : SignerInfoFields) : List Der :=
  [.primitive Der.integerTag s.version, s.sid.toDer, .constructed Der.sequenceTag s.digestAlgorithm] ++
    attributes Der.contextTag0 s.signedAttrs ++
    [.constructed Der.sequenceTag s.signatureAlgorithm, .primitive Der.octetStringTag s.signature] ++
    attributes Der.contextTag1 s.unsignedAttrs

/-- A response with a token; the infos of the signers are the last field of the signed data. -/
structure TokenFields where
  status : Der
  contentType : Der
  leading : List Der
  signer : SignerInfoFields
  others : List Der

def TokenFields.signedData (t : TokenFields) : Der :=
  .constructed Der.sequenceTag (t.leading ++
    [.constructed Der.setTag (.constructed Der.sequenceTag t.signer.toList :: t.others)])

def TokenFields.toDer (t : TokenFields) : Der :=
  .constructed Der.sequenceTag [t.status, .constructed Der.sequenceTag [t.contentType, .constructed Der.contextTag0
    [t.signedData]]]

/-- The attributes as they are signed. -/
def signedSet (attrs : List Der) : List UInt8 := Der.encode (.constructed Der.setTag attrs)

variable {t : TokenFields} {attrs : List Der}

lemma ok_bind {ε α β : Type} (a : α) (f : α → Except ε β) : (Except.ok a >>= f) = f a := rfl

lemma child_ok {tag : Tag} {ds : List Der} {i : ℕ} {d : Der} (h : ds[i]? = some d) : child (.constructed tag ds) i = .ok d := by
  rw [child, children, ok_bind, h]
  rfl

lemma firstSignerInfo_toDer (t : TokenFields) :
    firstSignerInfo t.toDer = .ok (.constructed Der.sequenceTag t.signer.toList) := by
  rw [firstSignerInfo, TokenFields.toDer, child_ok (by simp; rfl), ok_bind, child_ok (by simp; rfl), ok_bind,
    child_ok (by simp; rfl), ok_bind, TokenFields.signedData, children, ok_bind, List.getLast?_concat]
  exact child_ok rfl

/-- Which element is taken for the attributes of a signer that is identified so. -/
def SignerIdentifier.taken (attrs : List Der) : SignerIdentifier → Der
  | issuerAndSerialNumber _ => .constructed Der.contextTag0 attrs
  | subjectKeyIdentifier keyIdentifier => .primitive Der.contextTag0 keyIdentifier

lemma findChildByContextTag_fields (s : SignerInfoFields) (hs : s.signedAttrs = some attrs) :
    findChildByContextTag s.toList Der.contextTag0 = some (s.sid.taken attrs) := by
  have hinteger : Der.integerTag ≠ Der.contextTag0 := by decide
  have hsequence : Der.sequenceTag ≠ Der.contextTag0 := by decide
  cases hsid : s.sid <;>
    simp [findChildByContextTag, SignerInfoFields.toList, SignerIdentifier.toDer, SignerIdentifier.taken, attributes, hs, hsid,
      Der.tag, hinteger, hsequence]

lemma withFirstOctet_encode (d : Der) (octet : UInt8) : withFirstOctet octet (Der.encode d) = octet :: Der.withLength d.content := by
  obtain ⟨first, h⟩ := Der.encode_eq d
  rw [h, withFirstOctet, List.set_cons_zero]

lemma signedSet_eq (attrs : List Der) : signedSet attrs = 0x31 :: Der.withLength (Der.encodeAll attrs) := by
  rw [signedSet, Der.encode]
  rfl

lemma extracted (hp : asn.fromBER data = some t.toDer) (hs : t.signer.signedAttrs = some attrs) :
    extractReencodedSignedAttrs asn data = .ok (0x31 :: Der.withLength (t.signer.sid.taken attrs).content) := by
  rw [extractReencodedSignedAttrs, hp]
  simp only
  rw [firstSignerInfo_toDer, ok_bind, children, ok_bind, findChildByContextTag_fields t.signer hs, reencode,
    withFirstOctet_encode]
  rfl

/-- The octets that are checked are the signed ones if the signer is identified by issuer and serial number; a key
identifier, whose tag is that of the attributes, is taken in their place. -/
lemma extracted_iff (hp : asn.fromBER data = some t.toDer) (hs : t.signer.signedAttrs = some attrs) :
    extractReencodedSignedAttrs asn data = .ok (signedSet attrs) ↔
      ∀ keyIdentifier, t.signer.sid = .subjectKeyIdentifier keyIdentifier → keyIdentifier = Der.encodeAll attrs := by
  rw [extracted hp hs, signedSet_eq, Except.ok.injEq, List.cons.injEq, Der.withLength_injective.eq_iff]
  cases t.signer.sid with
  | issuerAndSerialNumber fields => simp [SignerIdentifier.taken, Der.content]
  | subjectKeyIdentifier keyIdentifier => simp [SignerIdentifier.taken, Der.content]

end Structure

section Reading

variable {certificateJwt' : String} {signedData : SignedData} {eContent digest nonce : List UInt8} {tstInfo : TstInfo}
  {info : TsaTimestampInfo} {genTime : ℕ} {reason : TsaReason}

lemma lift_ok {α : Type} {x : Except String α} {a : α} : lift x = .ok a ↔ x = .ok a := by
  cases x <;> simp [lift, Except.mapError]

lemma lift_error {α : Type} {x : Except String α} (h : lift x = .error reason) : ∃ message, reason = .thrown message := by
  cases x with
  | ok a => contradiction
  | error message =>
    simp only [lift, Except.mapError, Except.error.injEq] at h
    exact ⟨message, h.symm⟩

lemma bind_eq_ok {ε α β : Type} {x : Except ε α} {f : α → Except ε β} {b : β} (h : x >>= f = .ok b) :
    ∃ a, x = .ok a ∧ f a = .ok b := by
  cases x with
  | ok a => exact ⟨a, rfl, h⟩
  | error e => contradiction

lemma bind_eq_error {ε α β : Type} {x : Except ε α} {f : α → Except ε β} {e : ε} (h : x >>= f = .error e) :
    x = .error e ∨ ∃ a, x = .ok a ∧ f a = .error e := by
  cases x with
  | ok a => exact .inr ⟨a, rfl, h⟩
  | error e' => exact .inl (congrArg Except.error (Except.error.inj h))

/-- The steps that read a response go through, up to what it says. -/
structure Readable (asn : Asn1) (data : List UInt8) (token : ContentInfo) (signedData : SignedData) (eContent : List UInt8)
    (tstInfo : TstInfo) : Prop where
  response : ∃ resp, asn.timeStampResp data = .ok resp ∧ isGranted resp.status = true ∧ resp.timeStampToken = some token
  signed : asn.signedData token.content = .ok signedData
  content : signedData.eContent = some eContent
  info : asn.tstInfo eContent = .ok tstInfo

lemma readAnswer_ok (h : readAnswer asn digest nonce data = .ok tstInfo) : ∃ token signedData eContent,
    Readable asn data token signedData eContent tstInfo ∧ tstInfo.hashedMessage = digest := by
  obtain ⟨resp, hresp, h⟩ := bind_eq_ok h
  split at h
  · contradiction
  rename_i hgranted
  split at h
  · contradiction
  rename_i token htoken
  obtain ⟨signedData, hsigned, h⟩ := bind_eq_ok h
  split at h
  · contradiction
  rename_i eContent hcontent
  obtain ⟨tstInfo', hinfo, h⟩ := bind_eq_ok h
  split at h
  · contradiction
  rename_i himprint
  split at h
  · contradiction
  obtain rfl := Except.ok.inj h
  exact ⟨token, signedData, eContent,
    ⟨⟨resp, hresp, Bool.not_eq_false _ ▸ hgranted, htoken⟩, hsigned, hcontent, hinfo⟩, not_not.mp himprint⟩

lemma readToken_ok {r : SignedData × List UInt8 × TstInfo} (h : readToken asn k certificateJwt data = .ok r) :
    ∃ token, Readable asn data token r.1 r.2.1 r.2.2 ∧ token.contentType = signedDataOid ∧
      r.2.2.hashedMessage = k.hash "sha256" (Utf8.encode certificateJwt.toList) := by
  obtain ⟨resp, hresp, h⟩ := bind_eq_ok h
  split at h
  · contradiction
  rename_i hgranted
  split at h
  · contradiction
  rename_i token htoken
  split at h
  · contradiction
  rename_i htype
  obtain ⟨signedData, hsigned, h⟩ := bind_eq_ok h
  split at h
  · contradiction
  rename_i eContent hcontent
  obtain ⟨tstInfo, hinfo, h⟩ := bind_eq_ok h
  split at h
  · contradiction
  rename_i himprint
  obtain rfl := Except.ok.inj h
  exact ⟨token, ⟨⟨resp, lift_ok.mp hresp, Bool.not_eq_false _ ▸ hgranted, htoken⟩, lift_ok.mp hsigned, hcontent,
    lift_ok.mp hinfo⟩, not_not.mp htype, not_not.mp himprint⟩

lemma Readable.readToken_eq {token : ContentInfo} (h : Readable asn data token signedData eContent tstInfo)
    (himprint : tstInfo.hashedMessage = k.hash "sha256" (Utf8.encode certificateJwt.toList)) :
    readToken asn k certificateJwt data =
      if token.contentType ≠ signedDataOid then .error (.contentType token.contentType)
      else .ok (signedData, eContent, tstInfo) := by
  obtain ⟨resp, hresp, hgranted, htoken⟩ := h.response
  simp only [readToken, lift_ok.mpr hresp, ok_bind, hgranted, htoken, Bool.true_eq_false, if_false, lift_ok.mpr h.signed,
    h.content, lift_ok.mpr h.info, himprint, ne_eq, not_true_eq_false]
  rfl

/-- The stored response is no answer to the request for this certificate's hash. -/
def TsaReason.isNoAnswer : TsaReason → Bool
  | .noToken => true
  | .status _ => true
  | .noTimeStampToken => true
  | .noContent => true
  | .messageImprint => true
  | _ => false

lemma checkSigner_error {signerInfos : List SignerInfo} (h : checkSigner asn k eContent signerInfos = .error reason) :
    reason.isNoAnswer = false := by
  simp only [checkSigner] at h
  split at h
  · split at h
    · split at h
      · exact Except.error.inj h ▸ rfl
      · split at h
        · exact Except.error.inj h ▸ rfl
        · split at h
          · exact Except.error.inj h ▸ rfl
          · exact Except.error.inj h ▸ rfl
          · split at h
            · exact Except.error.inj h ▸ rfl
            · contradiction
    · exact Except.error.inj h ▸ rfl
  · exact Except.error.inj h ▸ rfl

lemma lift_isNoAnswer {α : Type} {x : Except String α} (h : lift x = .error reason) : reason.isNoAnswer = false := by
  obtain ⟨message, rfl⟩ := lift_error h
  rfl

lemma leafCertificate_error (h : leafCertificate k signedData = .error reason) : reason.isNoAnswer = false := by
  simp only [leafCertificate] at h
  split at h
  · exact Except.error.inj h ▸ rfl
  · exact Except.error.inj h ▸ rfl
  · exact lift_isNoAnswer h

lemma checkTrust_error {leaf : X509} (h : checkTrust k leaf pinnedRootCaPem genTime = .error reason) :
    reason.isNoAnswer = false := by
  rcases bind_eq_error h with h | ⟨root, -, h⟩
  · exact lift_isNoAnswer h
  · split at h
    · exact Except.error.inj h ▸ rfl
    · split at h
      · exact Except.error.inj h ▸ rfl
      · contradiction

lemma checkToken_ok (h : checkToken asn k certificateJwt pinnedRootCaPem data = .ok genTime) :
    ∃ token signedData eContent tstInfo, Readable asn data token signedData eContent tstInfo ∧
      tstInfo.hashedMessage = k.hash "sha256" (Utf8.encode certificateJwt.toList) ∧ tstInfo.genTime = genTime := by
  obtain ⟨⟨signedData, eContent, tstInfo⟩, hread, h⟩ := bind_eq_ok h
  obtain ⟨token, hreadable, -, himprint⟩ := readToken_ok hread
  refine ⟨token, signedData, eContent, tstInfo, hreadable, himprint, ?_⟩
  obtain ⟨⟨signerInfo, sigAlgName⟩, -, h⟩ := bind_eq_ok h
  obtain ⟨signedAttrs, -, h⟩ := bind_eq_ok h
  obtain ⟨leaf, -, h⟩ := bind_eq_ok h
  split at h
  · contradiction
  · obtain ⟨u, -, h⟩ := bind_eq_ok h
    exact Except.ok.inj h

lemma checkToken_error {token : ContentInfo} (hread : Readable asn data token signedData eContent tstInfo)
    (himprint : tstInfo.hashedMessage = k.hash "sha256" (Utf8.encode certificateJwt.toList))
    (h : checkToken asn k certificateJwt pinnedRootCaPem data = .error reason) : reason.isNoAnswer = false := by
  rw [checkToken, hread.readToken_eq himprint] at h
  by_cases htype : token.contentType = signedDataOid
  · rw [if_neg (not_not.mpr htype), ok_bind] at h
    rcases bind_eq_error h with h | ⟨⟨signerInfo, sigAlgName⟩, -, h⟩
    · exact checkSigner_error h
    rcases bind_eq_error h with h | ⟨signedAttrs, -, h⟩
    · exact lift_isNoAnswer h
    rcases bind_eq_error h with h | ⟨leaf, -, h⟩
    · exact leafCertificate_error h
    split at h
    · exact Except.error.inj h ▸ rfl
    rcases bind_eq_error h with h | ⟨u, -, h⟩
    · exact checkTrust_error h
    · contradiction
  · rw [if_pos htype] at h
    exact Except.error.inj h ▸ rfl

lemma Readable.unique {token token' : ContentInfo} {signedData' : SignedData} {eContent' : List UInt8} {tstInfo' : TstInfo}
    (h : Readable asn data token signedData eContent tstInfo)
    (h' : Readable asn data token' signedData' eContent' tstInfo') : tstInfo = tstInfo' := by
  obtain ⟨resp, hresp, -, htoken⟩ := h.response
  obtain ⟨resp', hresp', -, htoken'⟩ := h'.response
  obtain rfl := Except.ok.inj (hresp.symm.trans hresp')
  obtain rfl := Option.some.inj (htoken.symm.trans htoken')
  obtain rfl := Except.ok.inj (h.signed.symm.trans h'.signed)
  obtain rfl := Option.some.inj (h.content.symm.trans h'.content)
  exact Except.ok.inj (h.info.symm.trans h'.info)

lemma base64_ne_empty (asn : Asn1) {resp : TimeStampResp} (h : asn.timeStampResp data = .ok resp) :
    truthy (some (String.ofList (Base64.encode data))) = some (String.ofList (Base64.encode data)) := by
  refine KeyRegistry.truthy_eq_some_iff.mpr ⟨rfl, fun he => ?_⟩
  have hne : data ≠ [] := by
    rintro rfl
    exact asn.timeStampResp_nil resp h
  exact Base64.encode_ne_nil hne (by simpa using congrArg String.toList he)

lemma verifyTsaTimestamp_token (hs : info.status = .obtained) (ht : info.token = some (String.ofList (Base64.encode data)))
    {resp : TimeStampResp} (hresp : asn.timeStampResp data = .ok resp) :
    verifyTsaTimestamp asn k certificateJwt (some info) pinnedRootCaPem =
      verdict (checkToken asn k certificateJwt pinnedRootCaPem data) := by
  simp only [verifyTsaTimestamp, hs, ht, base64_ne_empty asn hresp, String.toList_ofList, Base64.decode_encode]

lemma valid_imprint (hs : info.status = .obtained) (ht : info.token = some (String.ofList (Base64.encode data)))
    {token : ContentInfo} (hread : Readable asn data token signedData eContent tstInfo)
    (h : verifyTsaTimestamp asn k certificateJwt (some info) pinnedRootCaPem = .valid genTime) :
    tstInfo.genTime = genTime ∧ tstInfo.hashedMessage = k.hash "sha256" (Utf8.encode certificateJwt.toList) := by
  obtain ⟨resp, hresp, -⟩ := hread.response
  rw [verifyTsaTimestamp_token hs ht hresp] at h
  cases hc : checkToken asn k certificateJwt pinnedRootCaPem data with
  | error reason =>
    rw [hc] at h
    cases h
  | ok genTime' =>
    rw [hc] at h
    injection h with h
    obtain ⟨token', signedData', eContent', tstInfo', hread', himprint, htime⟩ := checkToken_ok hc
    rw [hread.unique hread']
    exact ⟨htime.trans h, himprint⟩

end Reading

section Obtained

variable {tsaUrl attemptedAt certificateHashHex : String} {randomBytes : List UInt8}
  {post : List UInt8 → List UInt8 → TsaReply} {info : TsaTimestampInfo} {tstInfo : TstInfo} {signedData : SignedData}
  {eContent : List UInt8}

lemma requestTimestamp_cases :
    (requestTimestamp asn tsaUrl attemptedAt certificateHashHex randomBytes post).status = .failed ∨
    ∃ data tstInfo, readAnswer asn (Hex.decode certificateHashHex.toList) (clearTopBit randomBytes) data = .ok tstInfo ∧
      requestTimestamp asn tsaUrl attemptedAt certificateHashHex randomBytes post =
        { status := .obtained, token := some (String.ofList (Base64.encode data)),
          timestamp := some (toISOString tstInfo.genTime), tsaUrl, attemptedAt } := by
  simp only [requestTimestamp]
  split
  · exact .inl rfl
  · split
    · exact .inl rfl
    · split
      · exact .inl rfl
      · rename_i status data hreply hstatus x tstInfo hread
        exact .inr ⟨data, tstInfo, hread, rfl⟩

/-- The record tells the time of its own token, which the check reads to the end for this certificate: it stops before
the signer at most for a token that says to be no signed data. -/
structure Obtained (asn : Asn1) (k : Crypto Key X509) (certificateJwt : String) (info : TsaTimestampInfo)
    (tstInfo : TstInfo) : Prop where
  status : info.status = .obtained
  timestamp : info.timestamp = some (toISOString tstInfo.genTime)
  read : ∃ text token signedData eContent, truthy info.token = some text ∧
    Readable asn (Base64.decode text.toList) token signedData eContent tstInfo ∧
    readToken asn k certificateJwt (Base64.decode text.toList) =
      if token.contentType ≠ signedDataOid then .error (.contentType token.contentType)
      else .ok (signedData, eContent, tstInfo)

lemma obtained_of_readAnswer (hs : info.status = .obtained) (ht : info.token = some (String.ofList (Base64.encode data)))
    (hp : info.timestamp = some (toISOString tstInfo.genTime)) {token : ContentInfo}
    (hread : Readable asn data token signedData eContent tstInfo)
    (himprint : tstInfo.hashedMessage = k.hash "sha256" (Utf8.encode certificateJwt.toList)) :
    Obtained asn k certificateJwt info tstInfo := by
  obtain ⟨resp, hresp, -⟩ := hread.response
  have hdecode : Base64.decode (String.ofList (Base64.encode data)).toList = data := by
    rw [String.toList_ofList, Base64.decode_encode]
  refine ⟨hs, hp, String.ofList (Base64.encode data), token, signedData, eContent, ?_, ?_, ?_⟩
  · rw [ht, base64_ne_empty asn hresp]
  · rwa [hdecode]
  · rw [hdecode, hread.readToken_eq himprint]

end Obtained

section Honest

/-- A token that passes all checks but that of the signature, which its signer made over the attributes as a set. -/
structure HonestToken (asn : Asn1) (k : Crypto Key X509) (certificateJwt pinnedRootCaPem : String) (data : List UInt8)
    (t : TokenFields) (genTime : ℕ) : Prop where
  parsed : asn.fromBER data = some t.toDer
  checked : ∃ signedData eContent tstInfo signerInfo sigAlgName leaf attrs, t.signer.signedAttrs = some attrs ∧
    readToken asn k certificateJwt data = .ok (signedData, eContent, tstInfo) ∧ tstInfo.genTime = genTime ∧
    checkSigner asn k eContent signedData.signerInfos = .ok (signerInfo, sigAlgName) ∧
    leafCertificate k signedData = .ok leaf ∧ checkTrust k leaf pinnedRootCaPem genTime = .ok () ∧
    ∀ bs, k.verify sigAlgName bs (k.publicKey leaf) signerInfo.signature = true ↔ bs = signedSet attrs

/-- The signer is identified by issuer and serial number, or by the octets of its own attributes. -/
def TokenFields.isAttributed (t : TokenFields) : Prop :=
  ∀ keyIdentifier attrs, t.signer.sid = .subjectKeyIdentifier keyIdentifier → t.signer.signedAttrs = some attrs →
    keyIdentifier = Der.encodeAll attrs

variable {t : TokenFields} {genTime : ℕ}

/-- The token of an honest authority is valid exactly if it names its signer by issuer and serial number; by a key
identifier, which the standard also allows, it is refused for its signature. -/
theorem honest_token_valid_iff (h : HonestToken asn k certificateJwt pinnedRootCaPem data t genTime)
    (info : TsaTimestampInfo) (hs : info.status = .obtained)
    (ht : info.token = some (String.ofList (Base64.encode data))) :
    (verifyTsaTimestamp asn k certificateJwt (some info) pinnedRootCaPem = .valid genTime ↔ t.isAttributed) ∧
    (verifyTsaTimestamp asn k certificateJwt (some info) pinnedRootCaPem = .invalid .signature ↔ ¬ t.isAttributed) := by
  obtain ⟨signedData, eContent, tstInfo, signerInfo, sigAlgName, leaf, attrs, hattrs, hread, rfl, hsigner, hleaf, htrust,
    hsigned⟩ := h.checked
  obtain ⟨token, hreadable, -, -⟩ := readToken_ok hread
  obtain ⟨resp, hresp, -⟩ := hreadable.response
  have hiff : t.isAttributed ↔ (0x31 :: Der.withLength (t.signer.sid.taken attrs).content) = signedSet attrs := by
    rw [← Except.ok.injEq (ε := String), ← extracted h.parsed hattrs, extracted_iff h.parsed hattrs]
    constructor
    · exact fun ha keyIdentifier hsid => ha keyIdentifier attrs hsid hattrs
    · intro ha keyIdentifier attrs' hsid hattrs'
      obtain rfl := Option.some.inj (hattrs.symm.trans hattrs')
      exact ha keyIdentifier hsid
  rw [verifyTsaTimestamp_token hs ht hresp, hiff, ← hsigned, checkToken, hread, ok_bind]
  simp only
  rw [hsigner, ok_bind]
  simp only
  rw [extracted h.parsed hattrs, lift_ok.mpr rfl, ok_bind, hleaf, ok_bind]
  by_cases hv : k.verify sigAlgName (0x31 :: Der.withLength (t.signer.sid.taken attrs).content) (k.publicKey leaf)
      signerInfo.signature = true
  · simp only [hv, Bool.true_eq_false, if_false, htrust, ok_bind]
    exact ⟨⟨fun _ => trivial, fun _ => rfl⟩, ⟨fun h => (by cases h), fun h => absurd trivial h⟩⟩
  · simp only [hv, if_true]
    exact ⟨⟨fun h => (by cases h), fun h => (by cases h)⟩, ⟨fun _ => Bool.false_ne_true, fun _ => rfl⟩⟩

def sampleJwt : String := "header.payload.signature"

def sampleJwtHash : List UInt8 := Hex.decode "256d04db4e5e4ac308751ed0885b722b758630567c53a7125ed9fbd068e5c3f6".toList

def objectId (content : List UInt8) : Der := .primitive Der.objectIdTag content

def sha256Id : Der := .constructed Der.sequenceTag [objectId [0x60, 0x86, 0x48, 0x01, 0x65, 0x03, 0x04, 0x02, 0x01]]

/-- The timestamped hash, and when. -/
def sampleTst : Der := .constructed Der.sequenceTag [.primitive Der.integerTag [1], objectId [0x2a, 0x03, 0x04],
  .constructed Der.sequenceTag [sha256Id, .primitive Der.octetStringTag sampleJwtHash], .primitive Der.integerTag [1],
  .primitive (Der.universalTag 24) (Utf8.encode "20260828150755Z".toList)]

def sampleContent : List UInt8 := Der.encode sampleTst

/-- The hashes of the certificate and of the content; nothing else is hashed here. -/
def sampleHash (_ : String) (bs : List UInt8) : List UInt8 :=
  if bs = sampleContent then Hex.decode "4680f4f7d36dafe84b7a4da7bd82cc09377bd91f3e458c59ec19a7cb2f7446f4".toList else sampleJwtHash

def sampleDigestValue : Der := .primitive Der.octetStringTag (sampleHash "sha256" sampleContent)

def sampleAttributes : List Der :=
  [.constructed Der.sequenceTag [objectId [0x2a, 0x86, 0x48, 0x86, 0xf7, 0x0d, 0x01, 0x09, 0x04],
    .constructed Der.setTag [sampleDigestValue]]]

def sampleToken (sid : SignerIdentifier) : TokenFields where
  status := .constructed Der.sequenceTag [.primitive Der.integerTag [0]]
  contentType := objectId [0x2a, 0x86, 0x48, 0x86, 0xf7, 0x0d, 0x01, 0x07, 0x02]
  leading := [.primitive Der.integerTag [3], .constructed Der.setTag [sha256Id], .constructed Der.sequenceTag
    [objectId [0x2a, 0x86, 0x48, 0x86, 0xf7, 0x0d, 0x01, 0x09, 0x10, 0x01, 0x04],
      .constructed Der.contextTag0 [.primitive Der.octetStringTag sampleContent]]]
  signer := ⟨[1], sid, [sha256Id], some sampleAttributes,
    [objectId [0x2a, 0x86, 0x48, 0x86, 0xf7, 0x0d, 0x01, 0x01, 0x0b]], [7], none⟩
  others := []

def sampleSigner : SignerInfo :=
  ⟨"2.16.840.1.101.3.4.2.1", "1.2.840.113549.1.1.11", some [⟨messageDigestAttrOid, [Der.encode sampleDigestValue]⟩], [7]⟩

def sampleSignedData : SignedData := ⟨some sampleContent, some [some [0x30, 0]], [sampleSigner]⟩

def sampleTstInfo : TstInfo := ⟨sampleJwtHash, none, 1787929675000⟩

/-- Of one token the parts are read, and nothing else. -/
def sampleAsn1 (t : TokenFields) : Asn1 where
  timeStampResp bs :=
    if bs = Der.encode t.toDer then .ok ⟨0, some ⟨signedDataOid, Der.encode t.signedData⟩⟩ else .error "Data does not match"
  signedData bs := if bs = Der.encode t.signedData then .ok sampleSignedData else .error "Data does not match"
  tstInfo bs := if bs = sampleContent then .ok sampleTstInfo else .error "Data does not match"
  fromBER bs :=
    if bs = Der.encode t.toDer then some t.toDer
    else if bs = Der.encode sampleDigestValue then some sampleDigestValue
    else none
  timeStampResp_nil resp h := by
    obtain ⟨octet, he⟩ := Der.encode_eq t.toDer
    rw [he, if_neg (by simp)] at h
    cases h

def sampleCrypto : Crypto Unit Unit where
  hash := sampleHash
  verify _ bs _ _ := bs = signedSet sampleAttributes
  ofDer _ := .ok ()
  ofPem _ := .ok ()
  publicKey _ := ()
  validFrom _ := 0
  validTo _ := 1800000000000
  checkIssued _ _ := true
  verifyCertificate _ _ := true

lemma honest_sample (sid : SignerIdentifier) (hd : Der.encode sampleDigestValue ≠ Der.encode (sampleToken sid).toDer) :
    HonestToken (sampleAsn1 (sampleToken sid)) sampleCrypto sampleJwt "pem" (Der.encode (sampleToken sid).toDer)
      (sampleToken sid) 1787929675000 := by
  have hread : Readable (sampleAsn1 (sampleToken sid)) (Der.encode (sampleToken sid).toDer)
      ⟨signedDataOid, Der.encode (sampleToken sid).signedData⟩ sampleSignedData sampleContent sampleTstInfo := by
    refine ⟨⟨⟨0, some ⟨signedDataOid, Der.encode (sampleToken sid).signedData⟩⟩, ?_, rfl, rfl⟩, ?_, rfl, ?_⟩
    · simp only [sampleAsn1, if_true]
    · simp only [sampleAsn1, if_true]
    · simp only [sampleAsn1, if_true]
  have himprint : sampleTstInfo.hashedMessage = sampleCrypto.hash "sha256" (Utf8.encode sampleJwt.toList) := by
    have hne : Utf8.encode sampleJwt.toList ≠ sampleContent := by decide +kernel
    simp only [sampleCrypto, sampleHash, if_neg hne, sampleTstInfo]
  refine ⟨by simp only [sampleAsn1, if_true], ?_⟩
  refine ⟨sampleSignedData, sampleContent, sampleTstInfo, sampleSigner, "sha256", (), sampleAttributes, rfl, ?_, rfl, ?_,
    rfl, rfl, fun bs => decide_eq_true_iff⟩
  · rw [hread.readToken_eq himprint, if_neg (not_not.mpr rfl)]
  · have hvalue : (sampleAsn1 (sampleToken sid)).fromBER (Der.encode sampleDigestValue) = some sampleDigestValue := by
      simp only [sampleAsn1, if_neg hd, if_true]
    have hdigest : digestName "2.16.840.1.101.3.4.2.1" = some "sha256" := by decide
    have hsignature : digestName "1.2.840.113549.1.1.11" = some "sha256" := by decide
    have hcontent : sampleDigestValue.content = sampleHash "sha256" sampleContent := rfl
    simp only [checkSigner, sampleSignedData, sampleSigner, hdigest, hsignature, Option.getD_some, List.find?_cons,
      decide_true, List.map_cons, hvalue, hcontent, sampleCrypto, ne_eq, not_true_eq_false, if_false]

def sampleTimestamp (sid : SignerIdentifier) : TsaTimestampInfo where
  status := .obtained
  token := some (String.ofList (Base64.encode (Der.encode (sampleToken sid).toDer)))
  tsaUrl := "https://freetsa.org/tsr"
  attemptedAt := "2026-08-28T15:07:55.000Z"

theorem honest_token_valid_iff_sample :
    verifyTsaTimestamp (sampleAsn1 (sampleToken (.issuerAndSerialNumber []))) sampleCrypto sampleJwt
      (some (sampleTimestamp (.issuerAndSerialNumber []))) "pem" = .valid 1787929675000 ∧
    verifyTsaTimestamp (sampleAsn1 (sampleToken (.subjectKeyIdentifier [3]))) sampleCrypto sampleJwt
      (some (sampleTimestamp (.subjectKeyIdentifier [3]))) "pem" = .invalid .signature := by
  constructor
  · refine (honest_token_valid_iff (honest_sample _ (by decide +kernel)) (sampleTimestamp _) rfl rfl).1.mpr ?_
    intro keyIdentifier attrs hsid
    cases hsid
  · refine (honest_token_valid_iff (honest_sample _ (by decide +kernel)) (sampleTimestamp _) rfl rfl).2.mpr ?_
    intro h
    exact absurd (h [3] sampleAttributes rfl rfl) (by decide +kernel)

end Honest

end ChameleonVault.Evidence
