import ChameleonVault.Crypto.Keys

/-! The ciphertexts that the vault returns: their form, and what they decrypt to while their key is stored. -/

namespace ChameleonVault.Crypto

open Concurrency Call
open Deletion (Headers Reply)
open Encoding
open KeyRegistry (Dek Owner truthy truthy_eq_some_iff userIdSchema versionId)

section Ciphertexts

variable {n : ℕ} {value ciphertext : String} {bs : List UInt8}

lemma isDigit_version {c : Char} (h : c ∈ (toString n).toList) : c.isDigit = true := by
  have hdigits : (toString n).toList = Nat.toDigits 10 n := by simp
  rw [hdigits] at h
  exact Nat.isDigit_of_mem_toDigits (by decide) (by decide) h

def labelled (n : ℕ) (bs : List UInt8) : String := versionId n ++ ":" ++ String.ofList (Base64.encode bs)

lemma toList_labelled : (labelled n bs).toList = 'v' :: (toString n).toList ++ ':' :: Base64.encode bs := by
  simp [labelled, versionId, String.toList_append]

lemma ciphertextPattern_labelled (hbs : bs ≠ []) : ciphertextPattern (labelled n bs) = true := by
  have hchars := Base64.isChar_encode bs
  have htake : ((toString n).toList ++ ':' :: Base64.encode bs).takeWhile Char.isDigit = (toString n).toList := by
    rw [List.takeWhile_append_of_pos fun c hc => isDigit_version hc]
    simp
  have hdrop : ((toString n).toList ++ ':' :: Base64.encode bs).dropWhile Char.isDigit = ':' :: Base64.encode bs := by
    rw [List.dropWhile_append_of_pos fun c hc => isDigit_version hc]
    simp
  rw [ciphertextPattern, toList_labelled]
  simp only [List.cons_append, htake, hdrop]
  simp [Base64.encode_ne_nil hbs, hchars]

lemma splitCiphertext_labelled : splitCiphertext (labelled n bs) = (versionId n, String.ofList (Base64.encode bs)) := by
  have hversion : ':' ∉ (versionId n).toList := by
    intro hm
    rw [versionId, String.toList_append] at hm
    rcases List.mem_append.mp hm with hm | hm
    · exact absurd hm (by decide)
    · exact absurd (isDigit_version hm) (by decide)
  have hbase64 : ':' ∉ Base64.encode bs := by
    intro hm
    exact absurd (List.all_eq_true.mp (Base64.isChar_encode bs) ':' hm) (by decide)
  have hlist : (labelled n bs).toList = [':'].intercalate [(versionId n).toList, Base64.encode bs] := by
    simp [labelled, String.toList_append, List.intercalate_cons_cons]
  have hnone : ∀ l ∈ [(versionId n).toList, Base64.encode bs], ':' ∉ l := by
    rintro l hl
    rcases List.mem_pair.mp hl with rfl | rfl
    · exact hversion
    · exact hbase64
  have hsplit : (labelled n bs).toList.splitOn ':' = [(versionId n).toList, Base64.encode bs] := by
    rw [hlist, List.splitOn_intercalate _ hnone (List.cons_ne_nil _ _)]
  simp only [splitCiphertext, hsplit, String.ofList_toList]

end Ciphertexts

section Records

variable {kms : Kms} {p : Primitives} {allowed : Collection → VaultOp → VaultChoice → Prop} {owner : Owner}
  {plaintext : JsString} {ciphertext : String} {headers : Headers} {body : UserBody} {s t : Collection}

/-- The ciphertext is of the plaintext, under a key that is stored for the owner. -/
def Recorded (kms : Kms) (p : Primitives) (owner : Owner) (plaintext : JsString) (ciphertext : String)
    (s : Collection) : Prop :=
  ∃ data n bytes dek, s.docs owner.docId = some data ∧ data.deks.lookup (versionId n) = some bytes ∧
    kms.Wraps owner.tenantId bytes dek ∧ ciphertext = labelled n (packed p plaintext owner.userId dek)

lemma Recorded.mono (h : Recorded kms p owner plaintext ciphertext s) (hgrows : Grows s t) :
    Recorded kms p owner plaintext ciphertext t := by
  obtain ⟨data, n, bytes, dek, hdata, hl, hwraps, hciphertext⟩ := h
  obtain ⟨data', hdata', hkept⟩ := hgrows _ data hdata
  exact ⟨data', n, bytes, dek, hdata', hkept _ _ hl, hwraps, hciphertext⟩

lemma ofExcept_spec {α : Type} {result : Except String α} : MustCall (VaultOp.exec kms) allowed (ofExcept result) s
    (fun a t => t = s ∧ result = .ok a) fun e t => t = s ∧ result = .error e := by
  cases result with
  | ok a => exact MustCall.pure ⟨rfl, rfl⟩
  | error e => exact MustCall.throw ⟨rfl, rfl⟩

lemma encryptFor_spec (hk : kms.Lawful) (howner : userIdSchema owner.userId = true) (hs : Sound kms s) :
    MustCall (VaultOp.exec kms) allowed (encryptFor p owner plaintext) s
      (fun reply t => t = s ∧ ∀ status result, reply = .sent status result →
        result.userId = owner.userId ∧ Recorded kms p owner plaintext result.ciphertext s)
      fun _ t => t = s := by
  rw [encryptFor]
  refine MustCall.bind (getKeyForUser_spec.mono ?_ fun _ _ h => h.1)
  rintro keyData t ⟨rfl, hkey⟩
  cases keyData with
  | none => exact MustCall.pure ⟨rfl, nofun⟩
  | some keyData =>
    cases hdoc : t.docs owner.docId with
    | none =>
      rw [hdoc] at hkey
      cases hkey
    | some data =>
      have hkept := hs owner howner data hdoc
      obtain ⟨bytes, hl, hactive⟩ := hkept.getActiveKey hk
      rw [hdoc, hactive] at hkey
      obtain rfl := Option.some.inj (Except.ok.inj hkey)
      obtain ⟨dek, hwraps⟩ := hkept.wrapped _ _ hl
      refine MustCall.bind (decryptDataEncryptionKey_spec.mono ?_ fun _ _ h => h.1)
      rintro dek' u ⟨rfl, hdek⟩
      obtain rfl := Except.ok.inj (hdek.symm.trans (hwraps.unwrap hk))
      refine MustCall.bind (ofExcept_spec.mono ?_ fun _ _ h => h.1)
      rintro packedText v ⟨rfl, hencrypt⟩
      refine after_recordEvent (MustCall.pure ⟨rfl, ?_⟩)
      rintro status result hresult
      obtain ⟨rfl, rfl⟩ := Reply.sent.inj hresult
      obtain ⟨-, rfl⟩ := encrypt_ok_iff.mp hencrypt
      refine ⟨rfl, data, _, bytes, dek', hdoc, hl, hwraps, ?_⟩
      rw [hkept.active]
      rfl

lemma packed_ne_nil (hp : p.Lawful) {userId : String} {dek : Bytes} : packed p plaintext userId dek ≠ [] := by
  intro hnil
  have htag : (sealed p plaintext userId dek).2.length = authTagSize := hp.tagLength _ _ _ _
  rw [(List.append_eq_nil_iff.mp hnil).2] at htag
  cases htag

lemma decrypt_labelled_eq {n : ℕ} {bs : List UInt8} (hbs : bs ≠ []) : decryptFor p owner (labelled n bs) = (do
    let keyData ← keyCall owner (KeyRegistry.FirestoreRegistry.getKeyForUser (some (versionId n)))
    match keyData with
    | none => return .failed 404 "User key not found or has been shredded"
    | some keyData =>
      let dek ← decryptDataEncryptionKey keyData.encryptedDek owner.tenantId
      let plaintext ← ofExcept (DeterministicAES.decrypt p (String.ofList (Base64.encode bs)) owner.userId dek)
      recordEvent "DECRYPTION_PERFORMED" owner.userId
      return .sent 200 ⟨plaintext, owner.userId⟩) := by
  have hne : ¬(versionId n = "" ∨ String.ofList (Base64.encode bs) = "") := by
    rintro (he | he)
    · exact versionId_ne_empty n he
    · exact Base64.encode_ne_nil hbs (String.ofList_eq_empty_iff.mp he)
  rw [decryptFor]
  rw [splitCiphertext_labelled]
  exact if_neg hne

lemma decryptFor_spec (hk : kms.Lawful) (hp : p.Lawful) (howner : userIdSchema owner.userId = true) (hs : Sound kms s)
    (h : Recorded kms p owner plaintext ciphertext s) :
    MustCall (VaultOp.exec kms) allowed (decryptFor p owner ciphertext) s
      (fun reply t => t = s ∧ reply = .sent 200 ⟨Utf16.ofUtf8 (Utf16.toUtf8 plaintext), owner.userId⟩)
      fun _ t => t = s ∧ CanFail allowed := by
  obtain ⟨data, n, bytes, dek, hdata, hl, hwraps, rfl⟩ := h
  have hversion : truthy (some (versionId n)) = some (versionId n) :=
    truthy_eq_some_iff.mpr ⟨rfl, versionId_ne_empty n⟩
  have htarget : truthy ((truthy (some (versionId n))).orElse fun _ => data.activeDekId) = some (versionId n) := by
    rw [hversion]
    exact hversion
  have hget := (hs owner howner data hdata).getKeyForUser hk hl htarget
  rw [← hdata] at hget
  rw [decrypt_labelled_eq (packed_ne_nil hp)]
  refine MustCall.bind (getKeyForUser_spec.mono ?_ fun e t h => ⟨h.1, h.2.resolve_left fun herror => ?_⟩)
  · rintro keyData t ⟨rfl, hkey⟩
    obtain rfl := Except.ok.inj (hget.symm.trans hkey)
    refine MustCall.bind (decryptDataEncryptionKey_spec.mono ?_ fun e t h => ⟨h.1, h.2.resolve_left fun herror => ?_⟩)
    · rintro dek' u ⟨rfl, hdek⟩
      obtain rfl := Except.ok.inj (hdek.symm.trans (hwraps.unwrap hk))
      have hpacked : DeterministicAES.encrypt p plaintext owner.userId dek' =
          .ok (String.ofList (Base64.encode (packed p plaintext owner.userId dek'))) := encrypt_ok_iff.mpr ⟨hwraps.1, rfl⟩
      rw [decrypt_encrypt hp hpacked]
      exact after_recordEvent (MustCall.pure ⟨rfl, rfl⟩)
    · cases herror.symm.trans (hwraps.unwrap hk)
  · cases herror.symm.trans hget

/-- Whoever else asks, and whatever key is stored for them, the ciphertext does not decrypt. -/
lemma decryptFor_other_spec {other : Owner} (hp : p.Lawful) (h : Recorded kms p owner plaintext ciphertext s)
    (hne : other.userId ≠ owner.userId) : MustCall (VaultOp.exec kms) allowed (decryptFor p other ciphertext) t
      (fun reply _ => ∀ status result, reply ≠ .sent status result) fun _ _ => True := by
  obtain ⟨data, n, bytes, dek, -, -, hwraps, rfl⟩ := h
  have hpacked : DeterministicAES.encrypt p plaintext owner.userId dek =
      .ok (String.ofList (Base64.encode (packed p plaintext owner.userId dek))) := encrypt_ok_iff.mpr ⟨hwraps.1, rfl⟩
  rw [decrypt_labelled_eq (packed_ne_nil hp)]
  refine MustCall.bind (getKeyForUser_spec.mono ?_ fun _ _ _ => trivial)
  rintro keyData u -
  cases keyData with
  | none => exact MustCall.pure nofun
  | some keyData =>
    refine MustCall.bind (decryptDataEncryptionKey_spec.mono ?_ fun _ _ _ => trivial)
    rintro dek' v -
    refine MustCall.bind (ofExcept_spec.mono ?_ fun _ _ _ => trivial)
    rintro plaintext' w ⟨-, hdecrypt⟩
    exact absurd hdecrypt (decrypt_of_other hp hpacked hne plaintext')

end Records

section Routes

variable {kms : Kms} {p : Primitives} {headers : Headers} {body : UserBody} {owner : Owner} {plaintext : JsString}
  {ciphertext : String} {input : Option JsString} {s t : Collection}

lemma encrypt_spec (hk : kms.Lawful) (hs : Sound kms s) : MustCall (VaultOp.exec kms) (answers kms)
    (encrypt p headers body input) s (fun reply t => t = s ∧ ∀ status result, reply = .sent status result →
      body.accepted = true ∧ Recorded kms p (ownerOf headers body) (input.getD []) result.ciphertext s)
    fun _ _ => False := by
  rw [encrypt]
  split
  · rename_i hschema
    have hbody : body.accepted = true := ((Bool.and_eq_true _ _).mp hschema).1
    have howner : userIdSchema (ownerOf headers body).userId = true := userIdSchema_user hbody
    refine MustCall.tryCatch ((encryptFor_spec hk howner hs).mono (fun reply t h => ?_) fun e t h => ?_)
    · exact ⟨h.1, fun status result hresult => ⟨hbody, (h.2 status result hresult).2⟩⟩
    · exact MustCall.pure ⟨h, nofun⟩
  · exact MustCall.pure ⟨rfl, nofun⟩

lemma decryptFor_unchanged {allowed : Collection → VaultOp → VaultChoice → Prop} : MustCall (VaultOp.exec kms) allowed
    (decryptFor p owner ciphertext) s (fun _ t => t = s) fun _ t => t = s := by
  rw [decryptFor]
  dsimp only
  split
  · exact MustCall.throw rfl
  · refine MustCall.bind (getKeyForUser_spec.mono ?_ fun _ _ h => h.1)
    rintro keyData t ⟨rfl, -⟩
    cases keyData with
    | none => exact MustCall.pure rfl
    | some keyData =>
      refine MustCall.bind (decryptDataEncryptionKey_spec.mono ?_ fun _ _ h => h.1)
      rintro dek u ⟨rfl, -⟩
      refine MustCall.bind (ofExcept_spec.mono ?_ fun _ _ h => h.1)
      rintro plaintext v ⟨rfl, -⟩
      exact after_recordEvent (MustCall.pure rfl)

lemma decrypt_unchanged {input : Option String} : MustCall (VaultOp.exec kms) (answers kms)
    (decrypt p headers body input) s (fun _ t => t = s) fun _ _ => False := by
  rw [decrypt]
  split
  · refine MustCall.tryCatch (decryptFor_unchanged.mono (fun _ _ h => h) fun e t h => ?_)
    exact MustCall.pure h
  · exact MustCall.pure rfl

end Routes

end ChameleonVault.Crypto
