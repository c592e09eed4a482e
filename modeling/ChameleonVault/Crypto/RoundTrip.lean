import ChameleonVault.Crypto.Ciphertexts

/-! What a ciphertext that was returned decrypts to, however the keys are rotated after it. -/

namespace ChameleonVault.Crypto

open Concurrency Call
open Deletion (Headers Reply)
open Encoding
open KeyRegistry (KeyOp Owner userIdSchema)

section Runs

inductive CryptoRequest where
  | generate (headers : Headers) (body : UserBody)
  | rotate (headers : Headers) (body : UserBody)
  | encrypt (headers : Headers) (body : UserBody) (plaintext : Option JsString)
  | decrypt (headers : Headers) (body : UserBody) (ciphertext : Option String)
  deriving DecidableEq

inductive CryptoReply where
  | keys (reply : Reply String)
  | encrypted (reply : Reply EncryptReply)
  | decrypted (reply : Reply DecryptReply)
  deriving DecidableEq

def CryptoRequest.call (p : Primitives) : CryptoRequest → VaultCall CryptoReply
  | .generate headers body => return .keys (← Crypto.generate headers body)
  | .rotate headers body => return .keys (← Crypto.rotate headers body)
  | .encrypt headers body plaintext => return .encrypted (← Crypto.encrypt p headers body plaintext)
  | .decrypt headers body ciphertext => return .decrypted (← Crypto.decrypt p headers body ciphertext)

/-- One request after another, from a registry without keys. -/
inductive Serves (kms : Kms) (p : Primitives) : List (CryptoRequest × CryptoReply) → Collection → Prop where
  | start (now : KeyRegistry.Date) : Serves kms p [] ⟨now, fun _ => none⟩
  | wait {log : List (CryptoRequest × CryptoReply)} {s : Collection} (n : ℕ) (h : Serves kms p log s) :
      Serves kms p log { s with clock := s.clock + n }
  | serve {log : List (CryptoRequest × CryptoReply)} {s t : Collection} {request : CryptoRequest} {reply : CryptoReply}
      (h : Serves kms p log s)
      (hrun : Runs (VaultOp.exec kms) (answers kms) (request.call p).run s (.ok reply) t) :
      Serves kms p (log ++ [(request, reply)]) t

variable {kms : Kms} {p : Primitives} {request : CryptoRequest} {log : List (CryptoRequest × CryptoReply)}
  {s t : Collection} {headers : Headers} {body : UserBody} {input : Option JsString} {plaintext : JsString}
  {result : EncryptReply} {α : Type}

/-- A ciphertext that is answered is recorded. -/
def Answered (kms : Kms) (p : Primitives) (s : Collection) (request : CryptoRequest) (reply : CryptoReply) : Prop :=
  ∀ headers body input status result, request = .encrypt headers body input → reply = .encrypted (.sent status result) →
    body.accepted = true ∧ Recorded kms p (ownerOf headers body) (input.getD []) result.ciphertext s

lemma call_keeps (hk : kms.Lawful) (hs : Sound kms s) : MustCall (VaultOp.exec kms) (answers kms) (request.call p) s
    (fun reply t => Kept kms s t ∧ Answered kms p t request reply) fun _ _ => False := by
  cases request with
  | generate headers body =>
    refine MustCall.bind ((generate_keeps hk hs).mono (fun reply t ht => ?_) fun _ _ h => h)
    exact MustCall.pure ⟨ht, nofun⟩
  | rotate headers body =>
    refine MustCall.bind ((rotate_keeps hs).mono (fun reply t ht => ?_) fun _ _ h => h)
    exact MustCall.pure ⟨ht, nofun⟩
  | encrypt headers body input =>
    refine MustCall.bind ((encrypt_spec hk hs).mono (fun reply t ht => ?_) fun _ _ h => h)
    obtain ⟨rfl, hrecorded⟩ := ht
    refine MustCall.pure ⟨.refl hs, fun headers' body' input' status result hrequest hreply => ?_⟩
    obtain ⟨rfl, rfl, rfl⟩ := CryptoRequest.encrypt.inj hrequest
    exact hrecorded status result (CryptoReply.encrypted.inj hreply)
  | decrypt headers body input =>
    refine MustCall.bind (decrypt_unchanged.mono (fun reply t ht => ?_) fun _ _ h => h)
    exact MustCall.pure ⟨.of_eq hs ht, nofun⟩

lemma Serves.keeps (hk : kms.Lawful) (h : Serves kms p log s) :
    Sound kms s ∧ ∀ entry ∈ log, Answered kms p s entry.1 entry.2 := by
  induction h with
  | start now =>
    constructor
    · intro owner _ data hdata
      cases hdata
    · exact List.forall_mem_nil _
  | wait n h ih => exact ih
  | @serve log s t request reply h hrun ih =>
    obtain ⟨hs, hlog⟩ := ih
    have hcall : MustCall (VaultOp.exec kms) (answers kms) (request.call p) s
        (fun reply t => Kept kms s t ∧ Answered kms p t request reply) fun _ _ => False := call_keeps hk hs
    have hpost : Kept kms s t ∧ Answered kms p t request reply := hcall (.ok reply) t hrun
    obtain ⟨hkept, hanswered⟩ := hpost
    refine ⟨hkept.sound, List.forall_mem_append.mpr ⟨fun entry hm => ?_, List.forall_mem_singleton.mpr hanswered⟩⟩
    intro headers body input status result hrequest hreply
    obtain ⟨hbody, hrecorded⟩ := hlog entry hm headers body input status result hrequest hreply
    exact ⟨hbody, hrecorded.mono hkept.grows⟩

end Runs

section RoundTrips

variable {kms : Kms} {p : Primitives} {log : List (CryptoRequest × CryptoReply)} {s t : Collection} {headers : Headers}
  {body : UserBody} {plaintext : JsString} {result : EncryptReply} {owner : Owner} {ciphertext : String} {α : Type}
  {reply : α}

/-- The choice under which the call succeeds. -/
def VaultOp.success (kms : Kms) : VaultOp → VaultChoice
  | .key ⟨owner, .generateAndEncryptDek⟩ =>
    .key (.dek (kms.encrypt (kms.getKeyPath owner.tenantId) 0 (List.replicate keySize 0)))
  | .key _ => .key .done
  | _ => .done

lemma steady_success (s : Collection) (op : VaultOp) : steady kms s op (op.success kms) := by
  cases op with
  | key op =>
    obtain ⟨owner, op⟩ := op
    cases op with
    | generateAndEncryptDek => exact ⟨⟨List.replicate keySize 0, List.length_replicate, 0, rfl⟩, trivial⟩
    | get | ensureTenantKey | write w => exact ⟨trivial, trivial⟩
  | decryptDataEncryptionKey encryptedDek tenantId => exact ⟨trivial, trivial⟩
  | recordEvent eventType userId => exact ⟨trivial, trivial⟩

lemma exec_success (s : Collection) (op : VaultOp) : ∃ reply t, op.exec kms (op.success kms) s = some (reply, t) := by
  cases op with
  | key op =>
    obtain ⟨owner, op⟩ := op
    cases op with
    | get | ensureTenantKey | generateAndEncryptDek => exact ⟨_, _, rfl⟩
    | write w =>
      cases happly : w.apply s.clock (s.docs owner.docId) with
      | ok data =>
        have hexec : (KeyOp.write w).exec .done (s.of some owner) = some (.ok (), { s.of some owner with doc := some data }) := by
          simp only [KeyOp.exec, KeyRegistry.Collection.of, Option.bind_some, happly]
        exact ⟨.ok (), _, (KeyRegistry.exec_eq_some_iff rfl).mpr ⟨_, hexec, rfl⟩⟩
      | error e =>
        have hexec : (KeyOp.write w).exec .done (s.of some owner) = some (.error e, s.of some owner) := by
          simp only [KeyOp.exec, KeyRegistry.Collection.of, Option.bind_some, happly]
        exact ⟨.error e, _, (KeyRegistry.exec_eq_some_iff rfl).mpr ⟨_, hexec, rfl⟩⟩
  | decryptDataEncryptionKey encryptedDek tenantId => exact ⟨_, _, rfl⟩
  | recordEvent eventType userId => exact ⟨_, _, rfl⟩

lemma exists_steady_run (x : VaultCall α) (s : Collection) :
    ∃ r t, Runs (VaultOp.exec kms) (steady kms) x.run s r t :=
  exists_runs (fun s op => ⟨_, steady_success s op, exec_success s op⟩) x.run s

/-- Where nothing it calls fails, the call is answered so and not otherwise. -/
def Replies (kms : Kms) (x : VaultCall α) (s : Collection) (reply : α) : Prop :=
  (∃ t, Runs (VaultOp.exec kms) (steady kms) x.run s (.ok reply) t) ∧
    MustCall (VaultOp.exec kms) (steady kms) x s (fun r _ => r = reply) fun _ _ => False

lemma replies_of_must {x : VaultCall α}
    (h : MustCall (VaultOp.exec kms) (steady kms) x s (fun r _ => r = reply) fun _ _ => False) : Replies kms x s reply := by
  refine ⟨?_, h⟩
  obtain ⟨r, t, hr⟩ := exists_steady_run x s
  have hpost := h r t hr
  cases r with
  | error e => exact hpost.elim
  | ok r => exact ⟨t, hpost ▸ hr⟩

lemma Replies.unique {x : VaultCall α} {reply' : α} (h : Replies kms x s reply) (h' : Replies kms x s reply') :
    reply = reply' := by
  obtain ⟨t, hr⟩ := h.1
  exact h'.2 _ t hr

/-- What is meant by a ciphertext that can be decrypted again, in a state that the registry has come to. -/
structure RoundTrips (kms : Kms) (p : Primitives) (s : Collection) (owner : Owner) (plaintext : JsString)
    (ciphertext : String) : Prop where
  accepted (body : UserBody) : body.accepted = true → decryptSchema body (some ciphertext) = true
  returned (headers : Headers) (body : UserBody) : body.accepted = true → ownerOf headers body = owner →
    Replies kms (decrypt p headers body (some ciphertext)) s (.sent 200 ⟨plaintext, owner.userId⟩)
  withheld (headers : Headers) (body : UserBody) : body.user ≠ owner.userId →
    MustCall (VaultOp.exec kms) (answers kms) (decrypt p headers body (some ciphertext)) s
      (fun reply _ => ∀ status result, reply ≠ .sent status result) fun _ _ => False

lemma decryptSchema_recorded (hp : p.Lawful) (h : Recorded kms p owner plaintext ciphertext s)
    (hbody : body.accepted = true) : decryptSchema body (some ciphertext) = true := by
  obtain ⟨data, n, bytes, dek, -, -, -, rfl⟩ := h
  rw [decryptSchema, hbody, Option.any_some, ciphertextPattern_labelled (packed_ne_nil hp)]
  rfl

/-- The owner of a recorded ciphertext gets what is left of the plaintext after its bytes are read again. -/
lemma replies_recorded (hk : kms.Lawful) (hp : p.Lawful) (hs : Sound kms s) (howner : userIdSchema owner.userId = true)
    (h : Recorded kms p owner plaintext ciphertext s) (hbody : body.accepted = true) (hrequest : ownerOf headers body = owner) :
    Replies kms (decrypt p headers body (some ciphertext)) s
      (.sent 200 ⟨Utf16.ofUtf8 (Utf16.toUtf8 plaintext), owner.userId⟩) := by
  refine replies_of_must ?_
  unfold decrypt
  rw [if_pos (decryptSchema_recorded hp h hbody), hrequest]
  refine MustCall.tryCatch ((decryptFor_spec hk hp howner hs h).mono (fun _ _ h => h.2) fun e t h => ?_)
  exact absurd h.2 not_canFail_steady

lemma withheld_recorded (hp : p.Lawful) (h : Recorded kms p owner plaintext ciphertext s) (hne : body.user ≠ owner.userId) :
    MustCall (VaultOp.exec kms) (answers kms) (decrypt p headers body (some ciphertext)) t
      (fun reply _ => ∀ status result, reply ≠ .sent status result) fun _ _ => False := by
  unfold decrypt
  split
  · have hother : (ownerOf headers body).userId ≠ owner.userId := hne
    refine MustCall.tryCatch ((decryptFor_other_spec hp h hother).mono (fun _ _ h => h) fun e t _ => ?_)
    exact MustCall.pure nofun
  · exact MustCall.pure nofun

lemma roundTrips_iff (hk : kms.Lawful) (hp : p.Lawful) (hrun : Serves kms p log s)
    (hm : (.encrypt headers body (some plaintext), .encrypted (.sent 200 result)) ∈ log) :
    RoundTrips kms p s (ownerOf headers body) plaintext result.ciphertext ↔ 
      Utf16.ofUtf8 (Utf16.toUtf8 plaintext) = plaintext := by
  obtain ⟨hs, hlog⟩ := hrun.keeps hk
  obtain ⟨hbody, hrecorded⟩ := hlog _ hm headers body (some plaintext) 200 result rfl rfl
  rw [Option.getD_some] at hrecorded
  have howner : userIdSchema (ownerOf headers body).userId = true := userIdSchema_user hbody
  constructor
  · intro h
    have hreply := (replies_recorded hk hp hs howner hrecorded hbody rfl).unique (h.returned headers body hbody rfl)
    exact (DecryptReply.mk.inj (Reply.sent.inj hreply).2).1
  · intro hsame
    refine ⟨fun body' hbody => decryptSchema_recorded hp hrecorded hbody, fun headers' body' hbody hrequest => ?_,
      fun headers' body' hne => withheld_recorded hp hrecorded hne⟩
    have hreplies := replies_recorded hk hp hs howner hrecorded hbody hrequest
    rwa [hsame] at hreplies

end RoundTrips

section Examples

/-- Every byte of the associated data is announced, so that no other data begins like it. -/
def framed : Bytes → Bytes
  | [] => [0]
  | b :: bs => 1 :: b :: framed bs

lemma eq_of_framed {aad aad' rest : Bytes} (h : framed aad' <+: framed aad ++ rest) : aad' = aad := by
  induction aad' generalizing aad with
  | nil =>
    cases aad with
    | nil => rfl
    | cons b bs => simp [framed] at h
  | cons b' bs' ih =>
    cases aad with
    | nil => simp [framed] at h
    | cons b bs =>
      simp only [framed, List.cons_append, List.cons_prefix_cons] at h
      obtain ⟨-, rfl, h⟩ := h
      rw [ih h]

/-- A cipher that hides nothing and opens under the same associated data only. -/
def framing : Primitives where
  sha256 := id
  cipher _ _ aad plaintext := (framed aad ++ plaintext, List.replicate authTagSize 0)
  decipher _ _ aad ciphertext _ :=
    if framed aad <+: ciphertext then some (ciphertext.drop (framed aad).length) else none

lemma lawful_framing : framing.Lawful where
  correct key iv aad plaintext := by simp [framing]
  tagLength key iv aad plaintext := List.length_replicate
  authentic {key key' iv iv' aad aad' plaintext plaintext'} h := by
    by_cases hframed : framed aad' <+: framed aad ++ plaintext
    · exact eq_of_framed hframed
    · cases (if_neg hframed).symm.trans h

def wrapping : Kms where
  keyName := "master"
  encrypt _ _ dek := 0 :: dek
  decrypt _ ciphertext := ciphertext.tail?

lemma lawful_wrapping : wrapping.Lawful where
  unwraps _ _ _ := rfl
  nonempty _ _ dek := List.cons_ne_nil 0 dek

variable {kms : Kms} {p : Primitives} {requests : List CryptoRequest} {log log' : List (CryptoRequest × CryptoReply)}
  {s t : Collection}

def serveAll (kms : Kms) (p : Primitives) : List CryptoRequest → List (CryptoRequest × CryptoReply) → Collection →
    Option (List (CryptoRequest × CryptoReply) × Collection)
  | [], log, s => some (log, s)
  | request :: requests, log, s =>
    match drive (VaultOp.exec kms) (VaultOp.success kms) (request.call p).run s with
    | some (.ok reply, t) => serveAll kms p requests (log ++ [(request, reply)]) t
    | _ => none

lemma serves_of_serveAll (hs : Serves kms p log s) (h : serveAll kms p requests log s = some (log', t)) :
    Serves kms p log' t := by
  induction requests generalizing log s with
  | nil =>
    obtain ⟨rfl, rfl⟩ := Prod.mk.inj (Option.some.inj h)
    exact hs
  | cons request requests ih =>
    unfold serveAll at h
    split at h
    · rename_i reply t' hdrive
      exact ih (hs.serve (runs_of_drive (fun s op => (steady_success s op).1) hdrive)) h
    · cases h

lemma exists_serves (requests : List CryptoRequest) (entries : List (CryptoRequest × CryptoReply))
    (h : (serveAll kms p requests [] ⟨0, fun _ => none⟩).any (fun r => decide (entries ⊆ r.1)) = true) :
    ∃ log s, Serves kms p log s ∧ ∀ entry ∈ entries, entry ∈ log := by
  obtain ⟨⟨log, s⟩, hserve, hm⟩ := (Option.any_eq_true _ _).mp h
  exact ⟨log, s, serves_of_serveAll (.start 0) hserve, fun entry he => of_decide_eq_true hm he⟩

end Examples

section Main

variable {kms : Kms} {p : Primitives} {log : List (CryptoRequest × CryptoReply)} {s : Collection} {headers : Headers}
  {body : UserBody} {plaintext : JsString} {result : EncryptReply}

theorem decrypt_returns_plaintext_iff (hk : kms.Lawful) (hp : p.Lawful) (hrun : Serves kms p log s)
    (hm : (.encrypt headers body (some plaintext), .encrypted (.sent 200 result)) ∈ log) :
    RoundTrips kms p s (ownerOf headers body) plaintext result.ciphertext ↔ Utf16.isWellFormed plaintext = true :=
  (roundTrips_iff hk hp hrun hm).trans (Utf16.ofUtf8_toUtf8_iff plaintext)

theorem decrypt_returns_plaintext_rotated : ∃ log s, Serves wrapping framing log s ∧
    (.rotate {} ⟨some "u1", none⟩, .keys (.sent 200 "ROTATED")) ∈ log ∧
    RoundTrips wrapping framing s (ownerOf {} ⟨some "u1", none⟩) [104, 105] "v1:AXUBMQBoaQAAAAAAAAAAAAAAAAAAAAA=" := by
  let body : UserBody := ⟨some "u1", none⟩
  obtain ⟨log, s, hserves, hm⟩ : ∃ log s, Serves wrapping framing log s ∧
      ∀ entry ∈ [(.encrypt {} body (some [104, 105]),
          .encrypted (.sent 200 ⟨"v1:AXUBMQBoaQAAAAAAAAAAAAAAAAAAAAA=", "u1"⟩)),
        (.rotate {} body, .keys (.sent 200 "ROTATED"))], entry ∈ log :=
    exists_serves [.generate {} body, .encrypt {} body (some [104, 105]), .rotate {} body] _ (by decide +kernel)
  have hencrypted := hm _ List.mem_cons_self
  have hrotated := hm _ (List.mem_cons_of_mem _ List.mem_cons_self)
  exact ⟨log, s, hserves, hrotated,
    (decrypt_returns_plaintext_iff lawful_wrapping lawful_framing hserves hencrypted).mpr (by decide)⟩

theorem decrypt_returns_replacement : encryptSchema ⟨some "u1", none⟩ (some [0xD800]) = true ∧
    ∃ log s, Serves wrapping framing log s ∧
      (.encrypt {} ⟨some "u1", none⟩ (some [0xD800]),
        .encrypted (.sent 200 ⟨"v1:AXUBMQDvv70AAAAAAAAAAAAAAAAAAAAA", "u1"⟩)) ∈ log ∧
      (.decrypt {} ⟨some "u1", none⟩ (some "v1:AXUBMQDvv70AAAAAAAAAAAAAAAAAAAAA"),
        .decrypted (.sent 200 ⟨[0xFFFD], "u1"⟩)) ∈ log ∧
      ¬RoundTrips wrapping framing s (ownerOf {} ⟨some "u1", none⟩) [0xD800] "v1:AXUBMQDvv70AAAAAAAAAAAAAAAAAAAAA" := by
  let body : UserBody := ⟨some "u1", none⟩
  let ciphertext := "v1:AXUBMQDvv70AAAAAAAAAAAAAAAAAAAAA"
  obtain ⟨log, s, hserves, hm⟩ : ∃ log s, Serves wrapping framing log s ∧
      ∀ entry ∈ [(.encrypt {} body (some [0xD800]), .encrypted (.sent 200 ⟨ciphertext, "u1"⟩)),
        (.decrypt {} body (some ciphertext), .decrypted (.sent 200 ⟨[0xFFFD], "u1"⟩))], entry ∈ log :=
    exists_serves [.generate {} body, .encrypt {} body (some [0xD800]), .decrypt {} body (some ciphertext)] _
      (by decide +kernel)
  have hencrypted := hm _ List.mem_cons_self
  have hdecrypted := hm _ (List.mem_cons_of_mem _ List.mem_cons_self)
  refine ⟨by decide, log, s, hserves, hencrypted, hdecrypted, fun h => ?_⟩
  have hsame := (roundTrips_iff lawful_wrapping lawful_framing hserves hencrypted).mp h
  exact absurd hsame (by decide)

end Main

end ChameleonVault.Crypto
