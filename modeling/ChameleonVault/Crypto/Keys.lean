import ChameleonVault.Crypto.Routes
import ChameleonVault.KeyRegistry.Versions

/-! What a call of the vault leaves of the keys: a version that is stored stays what it is. -/

namespace ChameleonVault.Crypto

open Concurrency Call
open KeyRegistry (Dek Deks KeyCall KeyData KeyMetadata KeyOp KeyWrite Numbered Outcome OwnedOp Owner
  initialVersion numbered_initialVersion truthy truthy_eq_some_iff unavailable userIdSchema versionId versionIds)

section Lifting

variable {α β Op Op' : Type} {Ret : Op → Type} {Ret' : Op' → Type} {f : Op → Op'} {back : ∀ op, Ret' (f op) → Ret op}

lemma rename_bind {p : Prog Op Ret α} {g : α → Prog Op Ret β} :
    (p.bind g).rename f back = (p.rename f back).bind fun a => (g a).rename f back := by
  induction p with
  | done a => rfl
  | step op next ih => exact congrArg (Prog.step (f op)) (funext fun r => ih (back op r))
  | choose next ih => exact congrArg Prog.choose (funext ih)

variable {owner : Owner} {x : KeyCall α} {g : α → KeyCall β}

lemma keyCall_bind : keyCall owner (x >>= g) = keyCall owner x >>= fun a => keyCall owner (g a) := by
  refine (congrArg ExceptT.mk rename_bind).trans (congrArg ExceptT.mk (congrArg (Prog.bind _) (funext fun r => ?_)))
  cases r <;> rfl

end Lifting

section Documents

structure WellKept (kms : Kms) (owner : Owner) (data : KeyMetadata) : Prop where
  status : data.status = .active
  numbered : Numbered data.deks
  held : 0 < data.deks.keys.length
  active : data.activeDekId = some (versionId data.deks.keys.length)
  wrapped (version : String) (bytes : Dek) : data.deks.lookup version = some bytes →
    ∃ dek, kms.Wraps owner.tenantId bytes dek

def Sound (kms : Kms) (s : Collection) : Prop :=
  ∀ owner, userIdSchema owner.userId = true → ∀ data, s.docs owner.docId = some data → WellKept kms owner data

def Grows (s t : Collection) : Prop :=
  ∀ id data, s.docs id = some data → ∃ data', t.docs id = some data' ∧
    ∀ version bytes, data.deks.lookup version = some bytes → data'.deks.lookup version = some bytes

variable {kms : Kms} {owner : Owner} {data : KeyMetadata} {version : String} {bytes dek : Dek} {s t u : Collection}

lemma Grows.refl (s : Collection) : Grows s s := fun _ data h => ⟨data, h, fun _ _ h => h⟩

lemma versionId_ne_empty (n : ℕ) : versionId n ≠ "" := by
  intro he
  have hlist := congrArg String.toList he
  rw [versionId, String.toList_append] at hlist
  cases hlist

lemma Kms.Wraps.ne_nil (hk : kms.Lawful) {tenantId : String} (h : kms.Wraps tenantId bytes dek) : bytes ≠ [] := by
  obtain ⟨-, salt, rfl⟩ := h
  exact hk.nonempty _ _ _

lemma Kms.Wraps.unwrap (hk : kms.Lawful) {tenantId : String} (h : kms.Wraps tenantId bytes dek) :
    kms.unwrap bytes tenantId = .ok dek := by
  obtain ⟨-, salt, rfl⟩ := h
  rw [Kms.unwrap, hk.unwraps]

lemma WellKept.lookup_active (h : WellKept kms owner data) :
    ∃ bytes, data.deks.lookup (versionId data.deks.keys.length) = some bytes := by
  have hm : versionId data.deks.keys.length ∈ data.deks := by
    have hkeys := h.numbered
    obtain ⟨n, hn⟩ := Nat.exists_eq_add_of_lt h.held
    rw [AList.mem_keys, hkeys, hn]
    simp [versionIds, KeyRegistry.length_versionIds]
  exact Option.isSome_iff_exists.mp (AList.lookup_isSome.mpr hm)

lemma WellKept.getKeyForUser (hk : kms.Lawful) (h : WellKept kms owner data) (hl : data.deks.lookup version = some bytes)
    {keyVersionId : Option String} (hv : truthy ((truthy keyVersionId).orElse fun _ => data.activeDekId) = some version) :
    KeyRegistry.getKeyForUser (some data) keyVersionId =
      .ok (some ⟨bytes, data.activeDekId, (truthy data.encryptionVersion).getD "v1"⟩) := by
  obtain ⟨dek, hwraps⟩ := h.wrapped version bytes hl
  have hstatus : ¬(data.status = .shredded ∨ data.status = .deleted ∨ data.deks.keys.length = 0) := by
    have hheld := h.held
    rw [h.status]
    rintro (he | he | he)
    · cases he
    · cases he
    · omega
  rw [KeyRegistry.getKeyForUser]
  simp only [if_neg hstatus, hv, hl, if_neg (hwraps.ne_nil hk)]

lemma WellKept.getActiveKey (hk : kms.Lawful) (h : WellKept kms owner data) : ∃ bytes,
    data.deks.lookup (versionId data.deks.keys.length) = some bytes ∧ KeyRegistry.getKeyForUser (some data) none =
      .ok (some ⟨bytes, data.activeDekId, (truthy data.encryptionVersion).getD "v1"⟩) := by
  obtain ⟨bytes, hl⟩ := h.lookup_active
  refine ⟨bytes, hl, h.getKeyForUser hk hl ?_⟩
  rw [h.active]
  exact truthy_eq_some_iff.mpr ⟨rfl, versionId_ne_empty _⟩

end Documents

section Effects

variable {kms : Kms} {allowed : Collection → VaultOp → VaultChoice → Prop} {owner : Owner} {s t : Collection}
  {keyVersionId : Option String} {w : KeyWrite} {bytes dek : Dek}

/-- Whether a call may be answered by an outage. -/
def CanFail (allowed : Collection → VaultOp → VaultChoice → Prop) : Prop :=
  ∃ s op choice, allowed s op choice ∧ ¬choice.succeeds

lemma not_canFail_steady : ¬CanFail (steady kms) := fun ⟨_, _, _, h, hfail⟩ => hfail h.2

def Written (w : KeyWrite) (owner : Owner) (s t : Collection) : Prop :=
  ∃ data, w.apply s.clock (s.docs owner.docId) = .ok data ∧ t.docs = Function.update s.docs owner.docId (some data)

lemma exec_key {op : KeyOp} {choice : VaultChoice} {r : Except String op.Res}
    (h : (VaultOp.key ⟨owner, op⟩).exec kms choice s = some (r, t)) : ∃ outcome d, choice = .key outcome ∧
      op.exec outcome (s.of some owner) = some (r, d) ∧ t = { s with docs := Function.update s.docs owner.docId d.doc } := by
  cases choice with
  | key outcome =>
    obtain ⟨d, hd, ht⟩ := (KeyRegistry.exec_eq_some_iff rfl).mp (show OwnedOp.exec some ⟨owner, op⟩ outcome s = some (r, t) from h)
    exact ⟨outcome, d, rfl, hd, ht⟩
  | done => cases h
  | fail => cases h

lemma of_self : { s with docs := Function.update s.docs owner.docId (s.of some owner).doc } = s := by
  simp [KeyRegistry.Collection.of]

lemma get_spec : MustCall (VaultOp.exec kms) allowed (keyCall owner KeyRegistry.get) s
    (fun doc t => t = s ∧ doc = s.docs owner.docId) fun _ t => t = s ∧ CanFail allowed := by
  change MustCall _ _ (perform (VaultOp.key ⟨owner, .get⟩)) _ _ _
  refine MustCall.perform ?_ ?_
  · rintro choice doc s' - he
    obtain ⟨outcome, d, rfl, hd, rfl⟩ := exec_key he
    cases outcome <;> cases hd
    exact ⟨of_self, rfl⟩
  · rintro choice e s' ha he
    obtain ⟨outcome, d, rfl, hd, rfl⟩ := exec_key he
    cases outcome <;> cases hd
    exact ⟨of_self, _, _, _, ha, not_false⟩

lemma ensureTenantKey_spec : MustCall (VaultOp.exec kms) allowed (keyCall owner KeyRegistry.ensureTenantKey) s
    (fun _ t => t = s) fun _ t => t = s ∧ CanFail allowed := by
  change MustCall _ _ (perform (VaultOp.key ⟨owner, .ensureTenantKey⟩)) _ _ _
  refine MustCall.perform ?_ ?_
  · rintro choice doc s' - he
    obtain ⟨outcome, d, rfl, hd, rfl⟩ := exec_key he
    cases outcome <;> cases hd
    exact of_self
  · rintro choice e s' ha he
    obtain ⟨outcome, d, rfl, hd, rfl⟩ := exec_key he
    cases outcome <;> cases hd
    exact ⟨of_self, _, _, _, ha, not_false⟩

lemma generateAndEncryptDek_spec : MustCall (VaultOp.exec kms) (answers kms)
    (keyCall owner KeyRegistry.generateAndEncryptDek) s (fun bytes t => t = s ∧ ∃ dek, kms.Wraps owner.tenantId bytes dek)
    fun _ t => t = s := by
  change MustCall _ _ (perform (VaultOp.key ⟨owner, .generateAndEncryptDek⟩)) _ _ _
  refine MustCall.perform ?_ ?_
  · rintro choice bytes s' ha he
    obtain ⟨outcome, d, rfl, hd, rfl⟩ := exec_key he
    cases outcome <;> cases hd
    exact ⟨of_self, ha⟩
  · rintro choice e s' - he
    obtain ⟨outcome, d, rfl, hd, rfl⟩ := exec_key he
    cases outcome <;> cases hd
    exact of_self

lemma write_spec : MustCall (VaultOp.exec kms) allowed (keyCall owner (KeyRegistry.write w)) s
    (fun _ t => Written w owner s t) fun _ t => t = s ∨ Written w owner s t := by
  have hwritten {outcome : Outcome} {r : Except String Unit} {d : KeyRegistry.DocState}
      (hd : (KeyOp.write w).exec outcome (s.of some owner) = some (r, d)) :
      d = s.of some owner ∧ r ≠ .ok () ∨ ∃ data, w.apply s.clock (s.docs owner.docId) = .ok data ∧ d.doc = some data := by
    cases outcome with
    | done =>
      simp only [KeyOp.exec] at hd
      split at hd <;> cases hd
      · exact .inr ⟨_, by assumption, rfl⟩
      · exact .inl ⟨rfl, fun h => by cases h⟩
    | dek bytes => cases hd
    | fail committed =>
      cases committed with
      | false =>
        cases hd
        exact .inl ⟨rfl, fun h => by cases h⟩
      | true =>
        simp only [KeyOp.exec] at hd
        split at hd <;> cases hd
        exact .inr ⟨_, by assumption, rfl⟩
  change MustCall _ _ (perform (VaultOp.key ⟨owner, .write w⟩)) _ _ _
  refine MustCall.perform ?_ ?_
  · rintro choice u s' - he
    obtain ⟨outcome, d, rfl, hd, rfl⟩ := exec_key he
    rcases hwritten hd with ⟨-, hne⟩ | ⟨data, happly, hdoc⟩
    · exact absurd rfl hne
    · exact ⟨data, happly, by rw [hdoc]⟩
  · rintro choice e s' - he
    obtain ⟨outcome, d, rfl, hd, rfl⟩ := exec_key he
    rcases hwritten hd with ⟨rfl, -⟩ | ⟨data, happly, hdoc⟩
    · exact .inl of_self
    · exact .inr ⟨data, happly, by rw [hdoc]⟩

lemma getKeyForUser_spec : MustCall (VaultOp.exec kms) allowed
    (keyCall owner (KeyRegistry.FirestoreRegistry.getKeyForUser keyVersionId)) s
    (fun r t => t = s ∧ KeyRegistry.getKeyForUser (s.docs owner.docId) keyVersionId = .ok r)
    fun e t => t = s ∧ (KeyRegistry.getKeyForUser (s.docs owner.docId) keyVersionId = .error e ∨ CanFail allowed) := by
  rw [KeyRegistry.FirestoreRegistry.getKeyForUser]
  rw [keyCall_bind]
  refine MustCall.bind (get_spec.mono ?_ fun _ _ h => ⟨h.1, .inr h.2⟩)
  rintro doc t ⟨rfl, rfl⟩
  cases KeyRegistry.getKeyForUser (t.docs owner.docId) keyVersionId with
  | ok key => exact MustCall.pure ⟨rfl, rfl⟩
  | error e => exact MustCall.throw ⟨rfl, .inl rfl⟩

lemma answered_eq_some {α : Type} {value r : Except String α} {choice : VaultChoice}
    (h : answered value s choice = some (r, t)) :
    t = s ∧ (r = value ∨ r = .error unavailable ∧ ¬choice.succeeds) := by
  cases choice with
  | done =>
    obtain ⟨rfl, rfl⟩ := Prod.mk.inj (Option.some.inj h)
    exact ⟨rfl, .inl rfl⟩
  | fail =>
    obtain ⟨rfl, rfl⟩ := Prod.mk.inj (Option.some.inj h)
    exact ⟨rfl, .inr ⟨rfl, not_false⟩⟩
  | key outcome => cases h

lemma decryptDataEncryptionKey_spec : MustCall (VaultOp.exec kms) allowed
    (decryptDataEncryptionKey bytes owner.tenantId) s (fun dek t => t = s ∧ kms.unwrap bytes owner.tenantId = .ok dek)
      fun e t => t = s ∧ (kms.unwrap bytes owner.tenantId = .error e ∨ CanFail allowed) := by
  refine MustCall.perform ?_ ?_
  · rintro choice dek s' - he
    obtain ⟨rfl, hdek | ⟨hfail, -⟩⟩ := answered_eq_some he
    · exact ⟨rfl, hdek.symm⟩
    · cases hfail
  · rintro choice e s' ha he
    obtain ⟨rfl, herror | ⟨-, hfail⟩⟩ := answered_eq_some he
    · exact ⟨rfl, .inl herror.symm⟩
    · exact ⟨rfl, .inr ⟨_, _, _, ha, hfail⟩⟩

/-- What is recorded, or not, changes nothing for the call. -/
lemma after_recordEvent {α : Type} {eventType userId : String} {f : Unit → VaultCall α} {ok : α → Collection → Prop}
    {err : String → Collection → Prop} (h : MustCall (VaultOp.exec kms) allowed (f ()) s ok err) :
    MustCall (VaultOp.exec kms) allowed (recordEvent eventType userId >>= f) s ok err := by
  have hrecord : MustCall (VaultOp.exec kms) allowed (recordEvent eventType userId) s (fun _ t => t = s) err :=
    MustCall.tryCatch (MustCall.perform (fun _ _ _ _ he => (answered_eq_some he).1)
      fun _ _ _ _ he => MustCall.pure (answered_eq_some he).1)
  refine MustCall.bind (hrecord.mono ?_ fun _ _ h => h)
  rintro _ t rfl
  exact h

end Effects

section Preservation

variable {kms : Kms} {owner : Owner} {data : KeyMetadata} {bytes dek : Dek} {s t u : Collection}

/-- The keys are sound, and none that was there before is lost or changed. -/
structure Kept (kms : Kms) (s t : Collection) : Prop where
  sound : Sound kms t
  grows : Grows s t

lemma Kept.refl (hs : Sound kms s) : Kept kms s s := ⟨hs, .refl s⟩

lemma Kept.of_eq (hs : Sound kms s) (h : t = s) : Kept kms s t := by
  subst h
  exact .refl hs

lemma kept_of_update (hs : Sound kms s) (howner : userIdSchema owner.userId = true) (hdata : WellKept kms owner data)
    (hold : ∀ old, s.docs owner.docId = some old → ∀ version bytes, old.deks.lookup version = some bytes →
      data.deks.lookup version = some bytes)
    (hdocs : t.docs = Function.update s.docs owner.docId (some data)) : Kept kms s t := by
  constructor
  · intro owner' howner' data' hdata'
    rw [hdocs] at hdata'
    by_cases hid : owner'.docId = owner.docId
    · rw [hid, Function.update_self] at hdata'
      obtain rfl := Option.some.inj hdata'
      obtain rfl | hoverlap := KeyRegistry.eq_or_overlaps (KeyRegistry.colon_not_mem howner) hid.symm
      · exact hdata
      · exact absurd hoverlap (KeyRegistry.not_overlaps howner')
    · rw [Function.update_of_ne hid] at hdata'
      exact hs owner' howner' data' hdata'
  · intro id old hid
    rw [hdocs]
    by_cases heq : id = owner.docId
    · subst heq
      exact ⟨data, Function.update_self _ _ _, hold old hid⟩
    · exact ⟨old, (Function.update_of_ne heq _ _).trans hid, fun _ _ h => h⟩

lemma kept_of_set (hs : Sound kms s) (howner : userIdSchema owner.userId = true) (hnone : s.docs owner.docId = none)
    (hwraps : kms.Wraps owner.tenantId bytes dek) (h : Written (.set owner.userId bytes) owner s t) : Kept kms s t := by
  obtain ⟨data, happly, hdocs⟩ := h
  obtain rfl := Except.ok.inj happly
  refine kept_of_update hs howner ?_ (fun old hold => by cases hnone.symm.trans hold) hdocs
  refine ⟨rfl, numbered_initialVersion bytes, Nat.one_pos, rfl, fun version bytes' hl => ?_⟩
  by_cases hv : version = versionId 1
  · subst hv
    rw [initialVersion, AList.lookup_insert] at hl
    obtain rfl := Option.some.inj hl
    exact ⟨dek, hwraps⟩
  · rw [initialVersion, AList.lookup_insert_ne hv] at hl
    cases hl

lemma kept_of_rotate (hs : Sound kms s) (howner : userIdSchema owner.userId = true) (hdoc : s.docs owner.docId = some data)
    (hwraps : kms.Wraps owner.tenantId bytes dek)
    (h : Written (.rotate (data.deks.insert (versionId (data.deks.keys.length + 1)) bytes)
      (versionId (data.deks.keys.length + 1))) owner s t) : Kept kms s t := by
  have hkept := hs owner howner data hdoc
  have hfresh := hkept.numbered.fresh
  have hkeys := congrArg List.length (KeyRegistry.keys_insert_fresh hfresh bytes)
  obtain ⟨data', happly, hdocs⟩ := h
  rw [hdoc] at happly
  obtain rfl := Except.ok.inj happly
  refine kept_of_update hs howner ?_ (fun old hold version bytes' hl => ?_) hdocs
  · refine ⟨rfl, hkept.numbered.insert bytes, ?_, ?_, fun version bytes' hl => ?_⟩
    · rw [hkeys, List.length_cons]
      exact Nat.succ_pos _
    · rw [hkeys, List.length_cons]
    · by_cases hv : version = versionId (data.deks.keys.length + 1)
      · subst hv
        rw [AList.lookup_insert] at hl
        obtain rfl := Option.some.inj hl
        exact ⟨dek, hwraps⟩
      · rw [AList.lookup_insert_ne hv] at hl
        exact hkept.wrapped version bytes' hl
  · obtain rfl := Option.some.inj (hdoc.symm.trans hold)
    have hv : version ≠ versionId (data.deks.keys.length + 1) := by
      rintro rfl
      exact hfresh (AList.lookup_isSome.mp (hl ▸ rfl))
    exact (AList.lookup_insert_ne hv).trans hl

end Preservation

section Routes

variable {kms : Kms} {p : Primitives} {owner : Owner} {headers : Deletion.Headers} {body : UserBody}
  {s : Collection}

lemma userIdSchema_user (h : body.accepted = true) : userIdSchema body.user = true := by
  simp only [UserBody.accepted, Bool.and_eq_true, Bool.or_eq_true] at h
  obtain ⟨⟨huser, halias⟩, hsome⟩ := h
  rw [UserBody.user]
  cases hu : truthy body.userId with
  | some userId =>
    obtain ⟨hbody, -⟩ := truthy_eq_some_iff.mp hu
    rw [hbody] at huser
    exact huser
  | none =>
    cases ha : body.userIdAlias with
    | some userIdAlias =>
      rw [ha] at halias
      exact halias
    | none =>
      rw [ha] at hsome
      obtain ⟨userId, hbody⟩ := Option.isSome_iff_exists.mp (hsome.resolve_right nofun)
      rw [hbody] at huser hu
      have hempty : userId = "" := by
        by_contra hne
        cases hu.symm.trans (truthy_eq_some_iff.mpr ⟨rfl, hne⟩)
      subst hempty
      exact absurd huser (by decide)

abbrev Keeps {α : Type} (kms : Kms) (x : VaultCall α) (s : Collection) : Prop :=
  MustCall (VaultOp.exec kms) (answers kms) x s (fun _ t => Kept kms s t) fun _ t => Kept kms s t

lemma keyGenerate_keeps (hk : kms.Lawful) (howner : userIdSchema owner.userId = true) (hs : Sound kms s) :
    Keeps kms (keyCall owner (KeyRegistry.keyGenerate owner.userId)) s := by
  rw [KeyRegistry.keyGenerate]
  rw [keyCall_bind]
  refine MustCall.bind (getKeyForUser_spec.mono ?_ fun _ _ h => .of_eq hs h.1)
  rintro existing t ⟨rfl, hkey⟩
  cases existing with
  | some key => exact MustCall.pure (.refl hs)
  | none =>
    have hnone : t.docs owner.docId = none := by
      by_contra hsome
      obtain ⟨data, hdata⟩ := Option.ne_none_iff_exists'.mp hsome
      obtain ⟨bytes, -, hactive⟩ := (hs owner howner data hdata).getActiveKey hk
      rw [hdata, hactive] at hkey
      cases hkey
    simp only [Option.isSome_none, Bool.false_eq_true, if_false, keyCall_bind]
    refine MustCall.bind (ensureTenantKey_spec.mono ?_ fun _ _ h => .of_eq hs h.1)
    rintro _ u rfl
    refine MustCall.bind (generateAndEncryptDek_spec.mono ?_ fun _ _ => .of_eq hs)
    rintro bytes u ⟨rfl, dek, hwraps⟩
    refine MustCall.bind (write_spec.mono (fun _ t ht => ?_) fun _ t ht => ?_)
    · exact MustCall.pure (kept_of_set hs howner hnone hwraps ht)
    · rcases ht with rfl | ht
      · exact .refl hs
      · exact kept_of_set hs howner hnone hwraps ht

lemma keyRotate_keeps (howner : userIdSchema owner.userId = true) (hs : Sound kms s) :
    Keeps kms (keyCall owner KeyRegistry.keyRotate) s := by
  simp only [KeyRegistry.keyRotate, KeyRegistry.FirestoreRegistry.rotateKeyForUser]
  simp only [keyCall_bind]
  refine MustCall.bind (ensureTenantKey_spec.mono ?_ fun _ _ h => .of_eq hs h.1)
  rintro _ t rfl
  refine MustCall.bind (generateAndEncryptDek_spec.mono ?_ fun _ _ => .of_eq hs)
  rintro bytes t ⟨rfl, dek, hwraps⟩
  refine MustCall.bind (get_spec.mono ?_ fun _ _ h => .of_eq hs h.1)
  rintro doc u ⟨rfl, hdoc⟩
  cases doc with
  | none => exact MustCall.throw (.refl hs)
  | some data =>
    dsimp only
    split
    · exact MustCall.throw (.refl hs)
    · rw [keyCall_bind]
      refine MustCall.bind (write_spec.mono (fun _ t ht => ?_) fun _ t ht => ?_)
      · exact MustCall.pure (kept_of_rotate hs howner hdoc.symm hwraps ht)
      · rcases ht with rfl | ht
        · exact .refl hs
        · exact kept_of_rotate hs howner hdoc.symm hwraps ht

/-- A route that catches what is thrown keeps the keys and answers. -/
lemma keeps_caught {α : Type} {x : VaultCall α} {handler : String → VaultCall α} (h : Keeps kms x s)
    (hhandler : ∀ e t, Kept kms s t → MustCall (VaultOp.exec kms) (answers kms) (handler e) t (fun _ u => Kept kms s u)
      fun _ _ => False) :
    MustCall (VaultOp.exec kms) (answers kms) (tryCatch x handler) s (fun _ t => Kept kms s t) fun _ _ => False :=
  MustCall.tryCatch (h.mono (fun _ _ ht => ht) hhandler)

lemma generate_keeps (hk : kms.Lawful) (hs : Sound kms s) : MustCall (VaultOp.exec kms) (answers kms)
    (generate headers body) s (fun _ t => Kept kms s t) fun _ _ => False := by
  rw [generate]
  split
  · rename_i hbody
    have howner : userIdSchema (ownerOf headers body).userId = true := userIdSchema_user hbody
    refine keeps_caught ?_ fun e t ht => MustCall.pure ht
    rw [generateFor]
    refine MustCall.bind ((keyGenerate_keeps hk howner hs).mono (fun status t ht => ?_) fun _ _ h => h)
    split
    · exact MustCall.pure ht
    · exact after_recordEvent (MustCall.pure ht)
  · exact MustCall.pure (.refl hs)

lemma rotate_keeps (hs : Sound kms s) : MustCall (VaultOp.exec kms) (answers kms) (rotate headers body) s
    (fun _ t => Kept kms s t) fun _ _ => False := by
  rw [rotate]
  split
  · rename_i hbody
    have howner : userIdSchema (ownerOf headers body).userId = true := userIdSchema_user hbody
    refine keeps_caught ?_ fun e t ht => ?_
    · rw [rotateFor]
      refine MustCall.bind ((keyRotate_keeps howner hs).mono (fun _ t ht => ?_) fun _ _ h => h)
      exact after_recordEvent (MustCall.pure ht)
    · split
      · exact MustCall.pure ht
      · exact MustCall.pure ht
  · exact MustCall.pure (.refl hs)

end Routes

end ChameleonVault.Crypto
