import ChameleonVault.Concurrency.Since
import ChameleonVault.Deletion.Holders
import ChameleonVault.Deletion.Ownership

/-! One active request for each user of a tenant: a request is created after a query that found
none, and can leave the active statuses and come back to them. -/

namespace ChameleonVault.Deletion

open Concurrency Interleaving Discipline Call DeletionRequestService

variable {d : Deployment} {w w' : World} {log : (vault d).Log} {a : (vault d).Action}
  {userId tenantId id : String} {request : DeletionRequest}

instance (request : DeletionRequest) : Decidable (request.BelongsTo userId tenantId) :=
  inferInstanceAs (Decidable (_ ∧ _))

def activeRequests (userId tenantId : String) (w : World) : List DeletionRequest :=
  w.requests.filter fun request => request.BelongsTo userId tenantId ∧ request.isActive = true

def Status.isActive (status : Status) : Bool :=
  status ∈ [.shredRequested, .keyDestroyed, .cascadePending, .cascadeInProgress, .cascadePartialFailure]

lemma isActive_status : request.isActive = request.status.isActive := rfl

section Creators

/-- For whom a call has found no active request. -/
def creators : Discipline Op (fun op => Except String op.Res) (Option (String × String)) where
  start := none
  allowed q
    | .createDeletionRequest userId _ tenantId _ => q = some (userId, tenantId)
    | _ => True
  next q
    | .getActiveDeletionRequestForUser userId tenantId, .ok none => some (userId, tenantId)
    | _, _ => q
  possible _ _ := True

lemma neutral_of_advancing (op : Op) (h : Advancing op) : creators.Neutral op := by
  intro q
  cases op <;> first | contradiction | exact ⟨trivial, fun _ => rfl⟩

lemma neutral_of_work (op : Op) (h : Work op) : creators.Neutral op :=
  neutral_of_advancing op (advancing_of_work h)

lemma createRequest_creators (q : Option (String × String)) (operationId : String) (requestedBy : Option String) :
    creators.Keeps q (createRequest userId operationId tenantId requestedBy) (fun _ _ => True) (fun _ _ => True) := by
  apply Keeps.bind
  refine Keeps.perform trivial (fun existing _ => ?_) (fun _ _ => trivial)
  cases existing with
  | some request => exact Keeps.pure trivial
  | none =>
    apply Keeps.bind
    refine Keeps.perform rfl (fun request _ => ?_) (fun _ _ => trivial)
    refine Keeps.neutral ?_ (fun _ => trivial) (fun _ => trivial)
    exact uses_bind (uses_quietly ((recordEvent_work _).mono neutral_of_work)) (fun _ => uses_pure _)

lemma creators_follows (d : Deployment) (j : Job) : creators.Follows creators.start (j.body d) (fun _ _ => True) := by
  cases j with
  | createRequest userId operationId tenantId requestedBy =>
    exact Follows.bind (Follows.mono (createRequest_creators none operationId requestedBy) (fun _ _ _ => trivial))
  | advanceRequest id newStatus operationId =>
    exact .of_uses ((uses_ignore (advanceRequest_advancing d id newStatus operationId [])).mono neutral_of_advancing)
      (fun _ => trivial)
  | cascade id request tenantId operationId redactionResources encryptedCopyResources =>
    exact .of_uses ((cascade_advancing d id request tenantId operationId redactionResources
      encryptedCopyResources).mono neutral_of_advancing) (fun _ => trivial)

lemma creators_governs (d : Deployment) : Governs (S := vault d) creators Keyed where
  body := creators_follows d
  exec hw he := ⟨trivial, hw.exec he⟩
  env hw he := hw.of_eq (env_requests he)

end Creators

section Activity

def activates (id : String) (e : (vault d).Entry) (log : (vault d).Log) : Bool :=
  (creates id e && !created id log) || (statusOf id e).any Status.isActive

def foundNone (userId tenantId : String) (t : ℕ) : (vault d).Entry → (vault d).Log → Bool
  | .act ⟨t', .getActiveDeletionRequestForUser userId' tenantId', _, .ok none⟩, _ =>
    t' = t && userId' = userId && tenantId' = tenantId
  | _, _ => false

def allInactive (userId tenantId : String) (w : World) (p : String → Bool) : Bool :=
  w.requests.all fun request =>
    !(request.BelongsTo userId tenantId && p request.deletionRequestId) || !request.isActive

def creationAlone (userId tenantId : String) (w : World) (log : (vault d).Log) : (vault d).Entry → Bool
  | .act ⟨t, .createDeletionRequest userId' id tenantId' requestedBy, choice, reply⟩ =>
    !((Op.createDeletionRequest userId' id tenantId' requestedBy).tookEffect choice reply
        && userId' = userId && tenantId' = tenantId && (w.deletionRequests.lookup id).isNone)
      || allInactive userId tenantId w fun id' => since (foundNone userId tenantId t) (activates id') log
  | _ => true

def reenters (userId tenantId id : String) (w : World) (e : (vault d).Entry) : Bool :=
  (w.deletionRequests.lookup id).any (fun request =>
      decide (request.BelongsTo userId tenantId) && !request.isActive)
    && (statusOf id e).any Status.isActive

def Op.edits (op : Op) (p : String → Bool) : Bool := (op.edit.map Prod.fst).all p

def reentryAlone (userId tenantId : String) (w : World) (log : (vault d).Log) : (vault d).Entry → Bool
  | .act a => a.op.edits fun id =>
    !reenters userId tenantId id w (.act a)
      || allInactive userId tenantId w fun id' => id' ≠ id && since (activates id) (activates id') log
  | .env _ => true

/-- A request is created, or comes back to an active status, only while the requests of its
subject that became active since it was looked for, or since it was active itself, are inactive. -/
def oneAtATime (userId tenantId : String) : (vault d).Guard := fun w log e =>
  creationAlone userId tenantId w log e = true ∧ reentryAlone userId tenantId w log e = true

instance : ∀ w log e, Decidable (@oneAtATime d userId tenantId w log e) :=
  fun _ _ _ => inferInstanceAs (Decidable (_ ∧ _))

end Activity

section Single

variable {t : ℕ} {e : (vault d).Entry} {p : String → Bool} {guard : (vault d).Guard}

def Concerns (userId tenantId id : String) (request : DeletionRequest) (w : World) : Prop :=
  w.deletionRequests.lookup id = some request ∧ request.BelongsTo userId tenantId

lemma inactive_of_allInactive (hw : Keyed w) (h : allInactive userId tenantId w p = true)
    (hr : Concerns userId tenantId id request w) (hp : p id = true) : request.isActive = false := by
  have hall := List.all_eq_true.mp h request (mem_requests.mpr ⟨id, hr.1⟩)
  have hb : request.BelongsTo userId tenantId := hr.2
  simpa [hb, hw id request hr.1, hp] using hall

lemma activates_exclusive {id id' : String} (h : activates id e log = true) (hne : id ≠ id') :
    activates id' e log = false := by
  rw [Bool.eq_false_iff]
  intro h'
  cases e with
  | env e => contradiction
  | act a =>
    obtain ⟨t, op, choice, reply⟩ := a
    simp only [activates, Bool.or_eq_true, Bool.and_eq_true, Option.any_eq_true] at h h'
    rcases h with ⟨hc, -⟩ | ⟨s, hs, -⟩ <;> rcases h' with ⟨hc', -⟩ | ⟨s', hs', -⟩
    · cases op <;> try contradiction
      simp only [creates, Bool.and_eq_true, decide_eq_true_eq] at hc hc'
      exact hne (hc.1.symm.trans hc'.1)
    · obtain ⟨he, -⟩ := changeOf_edit (statusOf_eq.mp hs')
      cases op <;> contradiction
    · obtain ⟨he, -⟩ := changeOf_edit (statusOf_eq.mp hs)
      cases op <;> contradiction
    · obtain ⟨he, -⟩ := changeOf_edit (statusOf_eq.mp hs)
      obtain ⟨he', -⟩ := changeOf_edit (statusOf_eq.mp hs')
      exact hne (congrArg Prod.fst (Option.some.inj (he.symm.trans he')))

/-- Of two requests of the subject the active one became active after the other; and every
active one became active after a call that found none looked. -/
structure Single (userId tenantId : String) (w : World) (log : (vault d).Log) : Prop where
  exists_of_created (id : String) : created id log = true → (w.deletionRequests.lookup id).isSome = true
  created (id : String) (request : DeletionRequest) : Concerns userId tenantId id request w → created id log = true
  newer (id id' : String) (request request' : DeletionRequest) : Concerns userId tenantId id request w →
    Concerns userId tenantId id' request' w → id ≠ id' → request'.isActive = true →
      since (activates id) (activates id') log = true
  found (t : ℕ) (id : String) (request : DeletionRequest) : creators.known t log = some (userId, tenantId) →
    Concerns userId tenantId id request w → request.isActive = true →
      since (foundNone userId tenantId t) (activates id) log = true

lemma Single.unique (h : Single userId tenantId w log) {id' : String} {request' : DeletionRequest}
    (hr : Concerns userId tenantId id request w) (hr' : Concerns userId tenantId id' request' w)
    (ha : request.isActive = true) (ha' : request'.isActive = true) : id = id' := by
  by_contra hne
  have hnewer := h.newer id id' request request' hr hr' hne ha'
  rw [since_asymm (fun e log he => activates_exclusive he (Ne.symm hne))
    (h.newer id' id request' request hr' hr (Ne.symm hne) ha)] at hnewer
  contradiction

/-- What one step does to a stored request of the subject. -/
inductive Fate (id : String) (request' : DeletionRequest) (w : World) (log : (vault d).Log)
    (a : (vault d).Action) : Prop
  | new (tenantId : String) (requestedBy : Option String) : w.deletionRequests.lookup id = none →
      creates id (.act a) = true → request'.tenantId = some tenantId →
      a.op = .createDeletionRequest request'.userId id tenantId requestedBy → Fate id request' w log a
  | old (request : DeletionRequest) : w.deletionRequests.lookup id = some request →
      request.userId = request'.userId → request.tenantId = request'.tenantId →
      request'.status = (statusOf id (.act a)).getD request.status → Fate id request' w log a

lemma fate (ha : Allowed creators Keyed guard w log a w') (hr : w'.deletionRequests.lookup id = some request) :
    Fate id request w log a := by
  cases hl : w.deletionRequests.lookup id with
  | none =>
    obtain ⟨hc, userId, tenantId, requestedBy, hop, rfl⟩ := exec_created ha.exec hl hr
    exact .new tenantId requestedBy hl hc rfl hop
  | some before =>
    have hl' := exec_lookup ha.exec hl
    rw [hr] at hl'
    obtain rfl := Option.some.inj hl'
    exact .old before hl (after_userId _ _ _).symm (after_tenantId _ _ _).symm (status_after _ _)

lemma not_created (h : Single userId tenantId w log) (hl : w.deletionRequests.lookup id = none) :
    Deletion.created id log = false := by
  rw [Bool.eq_false_iff]
  intro hc
  have hsome := h.exists_of_created id hc
  rw [hl] at hsome
  contradiction

lemma Single.active_before (h : Single userId tenantId w log) (ha : Allowed creators Keyed guard w log a w')
    (hr : Concerns userId tenantId id request w') (hs : request.isActive = true) :
    activates id (.act a) log = true ∨
      ∃ before, Concerns userId tenantId id before w ∧ before.isActive = true := by
  cases fate ha hr.1 with
  | new _ _ hl hc => exact .inl (by simp [activates, hc, not_created h hl])
  | old before hl hu ht hst =>
    have hb : Concerns userId tenantId id before w := ⟨hl, hu.trans hr.2.1, ht.trans hr.2.2⟩
    rw [isActive_status, hst] at hs
    cases hso : statusOf id (.act a) with
    | none =>
      rw [hso] at hs
      exact .inr ⟨before, hb, hs⟩
    | some newStatus =>
      rw [hso] at hs
      exact .inl (by simp [activates, hso, show newStatus.isActive = true from hs])

-- No other request of the subject is active when one is created or comes back.
lemma Single.alone (h : Single userId tenantId w log)
    (ha : Allowed creators Keyed (oneAtATime userId tenantId) w log a w') {id' : String} {request' : DeletionRequest}
    (hr : Concerns userId tenantId id request w') (hact : activates id (.act a) log = true)
    (hr' : Concerns userId tenantId id' request' w) (hne : id ≠ id') : request'.isActive = false := by
  rw [Bool.eq_false_iff]
  intro hs'
  obtain ⟨hcreation, hreentry⟩ := ha.guard
  have hallowed := ha.allowed
  have hw : Keyed w := ha.valid
  cases fate ha hr.1 with
  | new tenantId' requestedBy hl hc ht hop =>
    have hu : request.userId = userId := hr.2.1
    have htenant : tenantId' = tenantId := Option.some.inj (ht.symm.trans hr.2.2)
    obtain ⟨t, op, choice, reply⟩ := a
    simp only at hop hallowed
    subst hop hu htenant
    have hfound := h.found t id' request' hallowed hr' hs'
    simp only [creates, decide_true, Bool.true_and] at hc
    have hall : allInactive request.userId tenantId' w
        (fun id' => since (foundNone request.userId tenantId' t) (activates id') log) = true := by
      simpa [creationAlone, hc, hl] using hcreation
    rw [inactive_of_allInactive hw hall hr' hfound] at hs'
    contradiction
  | old before hl hu ht hst =>
    have hb : Concerns userId tenantId id before w := ⟨hl, hu.trans hr.2.1, ht.trans hr.2.2⟩
    have hnewer := h.newer id id' before request' hb hr' hne hs'
    cases hsb : before.isActive with
    | true => exact hne (h.unique hb hr' hsb hs')
    | false =>
      have hwritten : (statusOf id (.act a)).any Status.isActive = true := by
        simpa [activates, h.created id before hb] using hact
      obtain ⟨newStatus, hso, -⟩ := (Option.any_eq_true _ _).mp hwritten
      obtain ⟨he, -⟩ := changeOf_edit (statusOf_eq.mp hso)
      have hre : reenters userId tenantId id w (.act a) = true := by
        simp [reenters, hl, hb.2, hsb, hwritten]
      simp only [reentryAlone, Op.edits, he, Option.map_some, Option.all_some, hre, Bool.not_true,
        Bool.false_or] at hreentry
      rw [inactive_of_allInactive hw hreentry hr' (by simp [hne.symm, hnewer])] at hs'
      contradiction

lemma created_act (hc : Deletion.created id (.act a :: log) = true) :
    creates id (.act a) = true ∨ Deletion.created id log = true := by
  simpa [Deletion.created] using hc

lemma lookup_of_creates (ha : Allowed creators Keyed guard w log a w') (hc : creates id (.act a) = true) :
    (w'.deletionRequests.lookup id).isSome = true := by
  cases hl : w.deletionRequests.lookup id with
  | some before => simp [exec_lookup ha.exec hl]
  | none =>
    obtain ⟨t, op, choice, reply⟩ := a
    cases op <;> try contradiction
    simp only [creates, Bool.and_eq_true, decide_eq_true_eq] at hc
    obtain ⟨rfl, ht⟩ := hc
    rcases exec_cases (d := d) ha.exec with ⟨-, answer, r, hrun, -⟩ | ⟨hf, -⟩
    · obtain ⟨-, rfl⟩ := Prod.mk.inj (Except.ok.inj (Option.some.inj hrun))
      simp [hl, World.putRequest]
    · rw [ht] at hf
      contradiction

lemma known_creators (hk : creators.known t (.act a :: log) = some (userId, tenantId)) :
    foundNone userId tenantId t (.act a) log = true ∨
      creators.known t log = some (userId, tenantId) ∧ foundNone userId tenantId t (.act a) log = false := by
  cases hf : foundNone userId tenantId t (.act a) log with
  | true => exact .inl rfl
  | false =>
    refine .inr ⟨?_, rfl⟩
    by_cases ht : a.tid = t
    · subst ht
      rw [known_act_self] at hk
      obtain ⟨t, op, choice, reply⟩ := a
      cases op <;> try exact hk
      rcases reply with e | (_ | request)
      · exact hk
      · obtain ⟨rfl, rfl⟩ := Prod.mk.inj (Option.some.inj hk)
        simp [foundNone] at hf
      · exact hk
    · rwa [known_act_ne ht] at hk

lemma inactive_of_foundNone (ha : Allowed creators Keyed guard w log a w')
    (hf : foundNone userId tenantId t (.act a) log = true) (hr : Concerns userId tenantId id request w') :
    request.isActive = false := by
  rw [Bool.eq_false_iff]
  intro hs
  have hexec := ha.exec
  obtain ⟨t', op, choice, reply⟩ := a
  cases op <;> try contradiction
  rcases reply with e | (_ | request') <;> try contradiction
  simp only [foundNone, Bool.and_eq_true, decide_eq_true_eq] at hf
  obtain ⟨⟨-, rfl⟩, rfl⟩ := hf
  obtain ⟨answer, -, hrun⟩ := exec_ok (d := d) hexec
  obtain ⟨hnone, rfl⟩ := Prod.mk.inj (Except.ok.inj (Option.some.inj hrun))
  have hsome := getActive_isSome_iff.mpr ⟨request, mem_requests.mpr ⟨id, hr.1⟩, hr.2, hs⟩
  rw [hnone] at hsome
  contradiction

lemma Single.act (h : Single userId tenantId w log)
    (ha : Allowed creators Keyed (oneAtATime userId tenantId) w log a w') :
    Single userId tenantId w' (.act a :: log) where
  exists_of_created id hc := by
    rcases created_act hc with hc | hc
    · exact lookup_of_creates ha hc
    · obtain ⟨before, hl⟩ := Option.isSome_iff_exists.mp (h.exists_of_created id hc)
      simp [exec_lookup ha.exec hl]
  created id request hr := by
    cases fate ha hr.1 with
    | new _ _ hl hc => simp [Deletion.created, hc]
    | old before hl hu ht hst =>
      have hc := h.created id before ⟨hl, hu.trans hr.2.1, ht.trans hr.2.2⟩
      simp only [Deletion.created] at hc
      simp [Deletion.created, hc]
  newer id id' request request' hr hr' hne hs' := by
    rcases h.active_before ha hr' hs' with hnow | ⟨before', hb', hsb'⟩
    · exact since_now hnow
    · cases hact : activates id (.act a) log with
      | true =>
        rw [h.alone ha hr hact hb' hne] at hsb'
        contradiction
      | false =>
        cases fate ha hr.1 with
        | new _ _ hl hc => simp [activates, hc, not_created h hl] at hact
        | old before hl hu ht hst =>
          have hb : Concerns userId tenantId id before w := ⟨hl, hu.trans hr.2.1, ht.trans hr.2.2⟩
          exact since_kept hact (h.newer id id' before before' hb hb' hne hsb')
  found t id request hk hr hs := by
    rcases known_creators hk with hf | ⟨hk, hf⟩
    · rw [inactive_of_foundNone ha hf hr] at hs
      contradiction
    · rcases h.active_before ha hr hs with hnow | ⟨before, hb, hsb⟩
      · exact since_now hnow
      · exact since_kept hf (h.found t id before hk hb hsb)

lemma single_inductive : Inductive creators Keyed (@oneAtATime d userId tenantId) (Single userId tenantId) where
  act h ha := h.act ha
  env {w w' log e} h _ he _ := by
    have heq := env_requests he
    have hc (id : String) (request : DeletionRequest) (hr : Concerns userId tenantId id request w') :
        Concerns userId tenantId id request w := ⟨heq ▸ hr.1, hr.2⟩
    refine ⟨fun id hcr => ?_, fun id request hr => ?_, fun id id' request request' hr hr' hne hs => ?_,
      fun t id request hk hr hs => ?_⟩
    · rw [heq]
      exact h.exists_of_created id hcr
    · exact h.created id request (hc id request hr)
    · exact since_kept rfl (h.newer id id' request request' (hc id request hr) (hc id' request' hr') hne hs)
    · exact since_kept rfl (h.found t id request hk (hc id request hr) hs)

lemma single_initial (hn : ∀ request ∈ w.requests, ¬ request.BelongsTo userId tenantId) :
    Single userId tenantId w ([] : (vault d).Log) := by
  have absurd_concerns (id : String) (request : DeletionRequest) (hr : Concerns userId tenantId id request w) : False :=
    hn request (mem_requests.mpr ⟨id, hr.1⟩) hr.2
  exact ⟨nofun, fun id request hr => (absurd_concerns id request hr).elim,
    fun id _ request _ hr => (absurd_concerns id request hr).elim,
    fun _ id request _ hr => (absurd_concerns id request hr).elim⟩

lemma requests_ids (hw : Keyed w) : w.requests.map DeletionRequest.deletionRequestId = w.deletionRequests.keys := by
  simp only [World.requests, List.map_map, AList.keys, List.keys]
  apply List.map_congr_left
  rintro ⟨id, request⟩ hm
  exact hw id request (AList.mem_lookup_iff.mpr hm)

lemma Single.activeRequests_length (h : Single userId tenantId w log) (hw : Keyed w) :
    (activeRequests userId tenantId w).length ≤ 1 := by
  have hmem (request : DeletionRequest) (hr : request ∈ activeRequests userId tenantId w) :
      Concerns userId tenantId request.deletionRequestId request w ∧ request.isActive = true := by
    obtain ⟨hm, hf⟩ := List.mem_filter.mp hr
    obtain ⟨id, hl⟩ := mem_requests.mp hm
    have hid := hw id request hl
    simp only [Bool.decide_and, Bool.and_eq_true, decide_eq_true_eq] at hf
    exact ⟨⟨hid ▸ hl, hf.1⟩, by simpa using hf.2⟩
  have hids : ((activeRequests userId tenantId w).map DeletionRequest.deletionRequestId).Nodup := by
    have hsub := (List.filter_sublist (l := w.requests)
      (p := fun request => request.BelongsTo userId tenantId ∧ request.isActive = true)).map
      DeletionRequest.deletionRequestId
    rw [requests_ids hw] at hsub
    exact hsub.nodup w.deletionRequests.keys_nodup
  match hl : activeRequests userId tenantId w with
  | [] => simp
  | [request] => simp
  | request :: request' :: rest =>
    rw [hl] at hmem hids
    obtain ⟨hr, hs⟩ := hmem request (by simp)
    obtain ⟨hr', hs'⟩ := hmem request' (by simp)
    have heq := h.unique hr hr' hs hs'
    simp [heq] at hids

end Single

section Runs

def askedAgain : List VaultEvent :=
  keyShredded ++ [.start (.createRequest "ada" "again" "acme" none), .act 2 (.done .none)]

def bothFoundNone : List VaultEvent :=
  [.start (.createRequest "ada" "first" "acme" none), .start (.createRequest "ada" "second" "acme" none),
    .act 0 (.done .none), .act 1 (.done .none), .act 0 (.done .none), .act 1 (.done .none)]

end Runs

end ChameleonVault.Deletion
