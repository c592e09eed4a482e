import ChameleonVault.Deletion.Changes

/-! Runs of the vault seen from one deletion request: it is stored under its own id, its
subject never changes, and every other fact about it is an invariant of its changes. -/

namespace ChameleonVault.Deletion

open Concurrency Interleaving Discipline
open KeyRegistry (Date)

variable {d : Deployment}

def Keyed (w : World) : Prop :=
  ∀ id request, w.deletionRequests.lookup id = some request → request.deletionRequestId = id

lemma mem_requests {w : World} {request : DeletionRequest} :
    request ∈ w.requests ↔ ∃ id, w.deletionRequests.lookup id = some request := by
  simp only [World.requests, List.mem_map]
  constructor
  · rintro ⟨⟨id, request⟩, hm, rfl⟩
    exact ⟨id, AList.mem_lookup_iff.mpr hm⟩
  · rintro ⟨id, hl⟩
    exact ⟨⟨id, request⟩, AList.mem_lookup_iff.mp hl, rfl⟩

lemma Keyed.of_eq {w w' : World} (h : Keyed w) (he : w'.deletionRequests = w.deletionRequests) : Keyed w' := by
  intro id request hr
  rw [he] at hr
  exact h id request hr

lemma Keyed.putRequest {w : World} (h : Keyed w) {id : String} {request : DeletionRequest}
    (hid : request.deletionRequestId = id) : Keyed (w.putRequest id request) := by
  intro id' request' hr
  by_cases he : id' = id
  · subst he
    simp only [World.putRequest, AList.lookup_insert, Option.some.injEq] at hr
    rw [← hr, hid]
  · simp only [World.putRequest, AList.lookup_insert_ne he] at hr
    exact h id' request' hr

lemma Keyed.updateRequest {w w' : World} (h : Keyed w) {id missing : String}
    {f : DeletionRequest → DeletionRequest} (hf : ∀ r, (f r).deletionRequestId = r.deletionRequestId) {u : Unit}
    (hu : w.updateRequest id missing f = .ok (u, w')) : Keyed w' := by
  simp only [World.updateRequest] at hu
  split at hu
  · contradiction
  · rename_i request hr
    obtain ⟨-, rfl⟩ := Prod.mk.inj (Except.ok.inj hu)
    exact h.putRequest (by rw [hf, h id request hr])

lemma Keyed.run {w w' : World} (h : Keyed w) {op : Op} {answer : Answer} {a : op.Res}
    (hr : op.run d answer w = some (.ok (a, w'))) : Keyed w' := by
  cases op
  case createDeletionRequest userId id tenantId requestedBy =>
    obtain ⟨-, rfl⟩ := Prod.mk.inj (Except.ok.inj (Option.some.inj hr))
    split
    · exact h
    · exact h.putRequest rfl
  case claimTransition id allowedFromStatuses newStatus =>
    rcases claimTransition_cases (Option.some.inj hr) with ⟨request, hl, -, -, rfl⟩ | ⟨current, -, rfl⟩
    · exact h.putRequest (h id request hl)
    · exact h
  case updateDeletionRequestStatus id newStatus =>
    refine h.updateRequest (fun r => ?_) (Option.some.inj hr)
    rfl
  case updateDeletionRequestFields id fields =>
    rcases updateDeletionRequestFields_cases (Option.some.inj hr) with ⟨-, rfl⟩ | hu
    · exact h
    · refine h.updateRequest (fun r => ?_) hu
      rfl
  case updateJanitorWipeStatus id destination status details =>
    refine h.updateRequest (fun r => ?_) (Option.some.inj hr)
    rfl
  all_goals exact h.of_eq (run_requests hr rfl (by simp))

lemma Keyed.exec {w w' : World} (h : Keyed w) {op : Op} {choice : Outcome} {reply : Except String op.Res}
    (he : op.exec d choice w = some (reply, w')) : Keyed w' := by
  rcases exec_cases he with ⟨-, answer, a, hr, -⟩ | ⟨-, rfl⟩
  · exact h.run hr
  · exact h

lemma env_key_requests {userId tenantId : String} {write : KeyRegistry.KeyWrite} {w w' : World}
    (h : ((w.writeKey userId tenantId write).toOption).map Prod.snd = some w') :
    w'.deletionRequests = w.deletionRequests := by
  cases hk : w.writeKey userId tenantId write with
  | error e => simp [hk, Except.toOption] at h
  | ok r =>
    simp only [hk, Except.toOption, Option.map_some, Option.some.injEq] at h
    rw [← h]
    exact writeKey_requests hk

lemma env_requests {e : Env} {w w' : World} (h : e.step w = some w') : w'.deletionRequests = w.deletionRequests := by
  cases e with
  | tick ms => cases h; rfl
  | setClock now => cases h; rfl
  | setKey tenantId userId dek =>
    have hk : ((w.writeKey userId tenantId (.set userId dek)).toOption).map Prod.snd = some w' := h
    exact env_key_requests hk
  | rotateKey tenantId userId deks activeDekId =>
    have hk : ((w.writeKey userId tenantId (.rotate deks activeDekId)).toOption).map Prod.snd = some w' := h
    exact env_key_requests hk
  | addDestination tenantId userId destination =>
    have hk : ((w.writeKey userId tenantId (.addDestination destination)).toOption).map Prod.snd = some w' := h
    exact env_key_requests hk
  | serveEntries entries => cases h; rfl
  | declareEntries entries => cases h; rfl

lemma exec_ok {op : Op} {choice : Outcome} {w w' : World} {a : op.Res}
    (h : op.exec d choice w = some (.ok a, w')) :
    ∃ answer, choice = .done answer ∧ op.run d answer w = some (.ok (a, w')) := by
  cases choice with
  | done answer =>
    simp only [Op.exec] at h
    split at h
    · rename_i a' w'' hr
      obtain ⟨ha, rfl⟩ := Prod.mk.inj (Option.some.inj h)
      obtain rfl := Except.ok.inj ha
      exact ⟨answer, rfl, hr⟩
    · cases h
    · contradiction
  | failed =>
    simp only [Op.exec] at h
    split at h <;> cases h
  | unconfirmed answer =>
    simp only [Op.exec] at h
    split at h
    · contradiction
    · split at h
      · split at h <;> cases h
      · contradiction

lemma exec_possible {w w' : World} (h : Keyed w) {op : Op} {choice : Outcome} {reply : Except String op.Res}
    (he : op.exec d choice w = some (reply, w')) : handlers.possible op reply := by
  cases reply with
  | error e => cases op <;> trivial
  | ok a =>
    obtain ⟨answer, -, hr⟩ := exec_ok he
    cases op
    case getDeletionRequest id =>
      obtain ⟨rfl, -⟩ := Prod.mk.inj (Except.ok.inj (Option.some.inj hr))
      cases hl : w.deletionRequests.lookup id with
      | none => trivial
      | some request => exact h id request hl
    case signerDeletionRequest id =>
      obtain ⟨rfl, -⟩ := Prod.mk.inj (Except.ok.inj (Option.some.inj hr))
      cases hl : w.deletionRequests.lookup id with
      | none => trivial
      | some request => exact h id request hl
    case appendToChain tenantId id claims =>
      cases answer <;> try contradiction
      obtain ⟨rfl, -⟩ := Prod.mk.inj (Except.ok.inj (Option.some.inj hr))
      rfl
    all_goals trivial

lemma handlers_governs (d : Deployment) : Governs (S := vault d) handlers Keyed where
  body j := (body_settles d j).mono fun _ _ _ => trivial
  exec hw he := ⟨exec_possible hw he, hw.exec he⟩
  env hw he := hw.of_eq (env_requests he)

/-- A call that holds a claim has more to do. -/
lemma claim_running {guard : (vault d).Guard} {w : World} (hw : Keyed w) {c : (vault d).Config}
    (hr : Reachable guard (initial w) c) {t : ℕ} {claimed : Status} (h : (handlers.known t c.log).claim = some claimed) :
    ∃ p, c.threads[t]? = some p ∧ p.isDone = false := by
  have hobeyed : Obeyed handlers (fun q => q.claim = none) c :=
    (conforms_initial hw).obeys (handlers_governs d) (obeyed_initial w) (body_settles d) hr
  apply hobeyed.running rfl
  rw [h]
  exact nofun

section Subject

def Op.serves : Op → Option String
  | .claimTransition id _ _ => some id
  | .updateDeletionRequestStatus id _ => some id
  | .shredKeyForUser _ _ id => some id
  | .buildPlan id _ _ => some id
  | .getGhostDataFindings id _ _ => some id
  | .signerDeletionRequest id => some id
  | .uploadCertificate _ id _ _ _ _ => some id
  | _ => none

lemma concerns_of_allowed {q : Knowledge} {op : Op} {id : String} (h : handlers.allowed q op)
    (hs : op.serves = some id) : ∃ request, q.concerns id request := by
  cases op <;> cases hs <;> obtain ⟨request, hq⟩ := h
  all_goals first
    | exact ⟨request, hq⟩
    | exact ⟨request, hq.1⟩

def creates (id : String) : (vault d).Entry → Bool
  | .act ⟨_, .createDeletionRequest userId id' tenantId requestedBy, choice, reply⟩ =>
    id' = id && (Op.createDeletionRequest userId id' tenantId requestedBy).tookEffect choice reply
  | _ => false

def created (id : String) (log : (vault d).Log) : Bool := log.any (creates id)

variable {guard : (vault d).Guard} {w w' : World} {log : (vault d).Log} {a : (vault d).Action}

lemma request_after (ha : Allowed handlers Keyed guard w log a w') {t : ℕ} {request : DeletionRequest}
    (h : (handlers.known t (.act a :: log)).request = some request) :
    (handlers.known t log).request = some request ∨
      (a.op = .getDeletionRequest request.deletionRequestId ∧
        w.deletionRequests.lookup request.deletionRequestId = some request) := by
  by_cases ht : a.tid = t
  · subst ht
    rw [known_act_self] at h
    obtain ⟨t, op, choice, reply⟩ := a
    have hp : handlers.possible op reply := ha.possible
    have he : op.exec d choice w = some (reply, w') := ha.exec
    cases op
    case getDeletionRequest id =>
      cases reply with
      | error e => exact .inl h
      | ok result =>
        obtain rfl : result = some request := h
        obtain ⟨answer, -, hr⟩ := exec_ok he
        have hl := (Prod.mk.inj (Except.ok.inj (Option.some.inj hr))).1
        have hid : request.deletionRequestId = id := hp
        exact .inr ⟨by rw [hid], hid ▸ hl⟩
    case claimTransition id allowedFromStatuses newStatus =>
      rcases reply with e | (_ | current)
      · exact .inl h
      · simp only [handlers, Knowledge.claimed] at h
        split at h <;> exact .inl h
      · exact .inl h
    all_goals cases reply <;> exact .inl h
  · rw [known_act_ne ht] at h
    exact .inl h

lemma lookup_act (ha : Allowed handlers Keyed guard w log a w') {id : String} {request : DeletionRequest}
    (hr : w.deletionRequests.lookup id = some request) :
    ∃ request', w'.deletionRequests.lookup id = some request' ∧ request'.userId = request.userId ∧
      request'.tenantId = request.tenantId := by
  exact ⟨_, exec_lookup ha.exec hr, after_userId _ _ _, after_tenantId _ _ _⟩

structure Sound (w : World) (log : (vault d).Log) : Prop where
  read (t : ℕ) (request : DeletionRequest) : (handlers.known t log).request = some request →
    ∃ stored, w.deletionRequests.lookup request.deletionRequestId = some stored ∧
      stored.userId = request.userId ∧ stored.tenantId = request.tenantId
  served (a : (vault d).Action) (id : String) : Entry.act a ∈ log → a.op.serves = some id →
    ∃ stored, w.deletionRequests.lookup id = some stored

lemma Sound.act (h : Sound w log) (ha : Allowed handlers Keyed guard w log a w') : Sound w' (.act a :: log) where
  read t request hr := by
    rcases request_after ha hr with hk | ⟨-, hl⟩
    · obtain ⟨stored, hs, hu, ht⟩ := h.read t request hk
      obtain ⟨stored', hs', hu', ht'⟩ := lookup_act ha hs
      exact ⟨stored', hs', hu'.trans hu, ht'.trans ht⟩
    · exact lookup_act ha hl
  served b id hb hs := by
    have hstored : ∃ stored, w.deletionRequests.lookup id = some stored := by
      rcases List.mem_cons.mp hb with hb | hb
      · obtain rfl := Entry.act.inj hb
        obtain ⟨request, hq, hid⟩ := concerns_of_allowed ha.allowed hs
        obtain ⟨stored, hl, -⟩ := h.read b.tid request hq
        exact ⟨stored, hid ▸ hl⟩
      · exact h.served b id hb hs
    obtain ⟨stored, hl⟩ := hstored
    obtain ⟨stored', hl', -⟩ := lookup_act ha hl
    exact ⟨stored', hl'⟩

lemma sound_inductive : Inductive handlers Keyed guard Sound where
  act h ha := h.act ha
  env h _ he _ := by
    refine ⟨fun t request hr => ?_, fun a id ha hs => ?_⟩
    · rw [env_requests he]
      exact h.read t request hr
    · rw [env_requests he]
      exact h.served a id ((List.mem_cons.mp ha).resolve_left (by simp)) hs

end Subject

section Request

variable {guard : (vault d).Guard} {w w' : World} {log : (vault d).Log} {a : (vault d).Action} {id : String}

lemma lookup_updateRequest_none {id' missing : String} {f : DeletionRequest → DeletionRequest} {u : Unit}
    (h : w.updateRequest id' missing f = .ok (u, w')) (hn : w.deletionRequests.lookup id = none) :
    w'.deletionRequests.lookup id = none := by
  simp only [World.updateRequest] at h
  split at h
  · contradiction
  · rename_i r hr
    obtain ⟨-, rfl⟩ := Prod.mk.inj (Except.ok.inj h)
    have hid : id ≠ id' := by
      rintro rfl
      rw [hr] at hn
      contradiction
    rw [World.putRequest, AList.lookup_insert_ne hid, hn]

lemma run_created {op : Op} {answer : Answer} {r : op.Res} (h : op.run d answer w = some (.ok (r, w')))
    (hn : w.deletionRequests.lookup id = none) {request : DeletionRequest}
    (hr : w'.deletionRequests.lookup id = some request) :
    ∃ userId tenantId requestedBy, op = .createDeletionRequest userId id tenantId requestedBy ∧
      request = .new userId id tenantId requestedBy w.clock := by
  have absurd_none (hn' : w'.deletionRequests.lookup id = none) : False := by
    rw [hn'] at hr
    contradiction
  cases op
  case createDeletionRequest userId id' tenantId requestedBy =>
    obtain ⟨-, rfl⟩ := Prod.mk.inj (Except.ok.inj (Option.some.inj h))
    by_cases hid : id = id'
    · subst hid
      simp only [hn, World.putRequest, AList.lookup_insert] at hr
      exact ⟨userId, tenantId, requestedBy, rfl, (Option.some.inj hr).symm⟩
    · refine (absurd_none ?_).elim
      show (w.createDeletionRequest userId id' tenantId requestedBy).2.deletionRequests.lookup id = none
      simp only [World.createDeletionRequest]
      split
      · exact hn
      · rw [World.putRequest, AList.lookup_insert_ne hid, hn]
  case claimTransition id' allowedFromStatuses newStatus =>
    rcases claimTransition_cases (Option.some.inj h) with ⟨current, hl, -, -, rfl⟩ | ⟨current, -, rfl⟩
    · have hid : id ≠ id' := by
        rintro rfl
        rw [hl] at hn
        contradiction
      exact (absurd_none (by rw [World.putRequest, AList.lookup_insert_ne hid, hn])).elim
    · exact (absurd_none hn).elim
  case updateDeletionRequestStatus => exact (absurd_none (lookup_updateRequest_none (Option.some.inj h) hn)).elim
  case updateDeletionRequestFields =>
    rcases updateDeletionRequestFields_cases (Option.some.inj h) with ⟨-, rfl⟩ | hu
    · exact (absurd_none hn).elim
    · exact (absurd_none (lookup_updateRequest_none hu hn)).elim
  case updateJanitorWipeStatus => exact (absurd_none (lookup_updateRequest_none (Option.some.inj h) hn)).elim
  all_goals exact (absurd_none (by rw [run_requests h rfl (by simp), hn])).elim

lemma exec_created (h : Op.exec d a.op a.choice w = some (a.reply, w')) (hn : w.deletionRequests.lookup id = none)
    {request : DeletionRequest} (hr : w'.deletionRequests.lookup id = some request) :
    creates id (.act a) = true ∧ ∃ userId tenantId requestedBy,
      a.op = .createDeletionRequest userId id tenantId requestedBy ∧
      request = .new userId id tenantId requestedBy w.clock := by
  rcases exec_cases h with ⟨ht, answer, r, hrun, -⟩ | ⟨-, rfl⟩
  · obtain ⟨userId, tenantId, requestedBy, hop, hnew⟩ := run_created hrun hn hr
    refine ⟨?_, userId, tenantId, requestedBy, hop, hnew⟩
    obtain ⟨t, op, choice, reply⟩ := a
    simp only at hop
    subst hop
    simp [creates, ht]
  · rw [hn] at hr
    contradiction

structure Untouched (id : String) (log : (vault d).Log) : Prop where
  unread (t : ℕ) (request : DeletionRequest) :
    (handlers.known t log).request = some request → request.deletionRequestId ≠ id
  unserved (a : (vault d).Action) : Entry.act a ∈ log → a.op.serves ≠ some id

lemma Sound.untouched (h : Sound w log) (hn : w.deletionRequests.lookup id = none) : Untouched id log where
  unread t request hr := by
    rintro rfl
    obtain ⟨stored, hs, -⟩ := h.read t request hr
    rw [hn] at hs
    contradiction
  unserved a ha hs := by
    obtain ⟨stored, hl⟩ := h.served a id ha hs
    rw [hn] at hl
    contradiction

structure Touch (guard : (vault d).Guard) (id : String) (w : World) (log : (vault d).Log) (a : (vault d).Action)
    (w' : World) (request : DeletionRequest) : Prop where
  allowed : Allowed handlers Keyed guard w log a w'
  stored : w.deletionRequests.lookup id = some request
  sound : Sound w log
  created : created id log = true

structure Lasting (guard : (vault d).Guard) (id : String) (inv : DeletionRequest → (vault d).Log → Prop) : Prop where
  new {log : (vault d).Log} (userId tenantId : String) (requestedBy : Option String) (now : Date) :
    Untouched id log → inv (.new userId id tenantId requestedBy now) log
  act {w w' : World} {log : (vault d).Log} {a : (vault d).Action} {request : DeletionRequest} :
    inv request log → Touch guard id w log a w' request →
      inv (Change.after w.clock (changeOf id (.act a)) request) (.act a :: log)
  env {log : (vault d).Log} {e : Env} {request : DeletionRequest} : inv request log → inv request (.env e :: log)

structure Along (id : String) (inv : DeletionRequest → (vault d).Log → Prop) (w : World)
    (log : (vault d).Log) : Prop where
  sound : Sound w log
  created (request : DeletionRequest) : w.deletionRequests.lookup id = some request → created id log = true
  inv (request : DeletionRequest) : w.deletionRequests.lookup id = some request → inv request log

variable {inv : DeletionRequest → (vault d).Log → Prop}

lemma untouched_create (h : Untouched id log) {userId tenantId : String} {requestedBy : Option String}
    (ha : a.op = .createDeletionRequest userId id tenantId requestedBy) : Untouched id (.act a :: log) where
  unread t request hr := by
    by_cases ht : a.tid = t
    · subst ht
      rw [known_act_self] at hr
      obtain ⟨t, op, choice, reply⟩ := a
      simp only at ha
      subst ha
      exact h.unread t request hr
    · rw [known_act_ne ht] at hr
      exact h.unread t request hr
  unserved b hb := by
    rcases List.mem_cons.mp hb with hb | hb
    · obtain rfl := Entry.act.inj hb
      rw [ha]
      exact nofun
    · exact h.unserved b hb

lemma Lasting.inductive (h : Lasting guard id inv) : Inductive handlers Keyed guard (Along id inv) where
  act {w w' log a} hi ha := by
    have hsound : Sound w' (.act a :: log) := hi.sound.act ha
    cases hl : w.deletionRequests.lookup id with
    | none =>
      have hnew (request : DeletionRequest) (hr : w'.deletionRequests.lookup id = some request) :=
        exec_created ha.exec hl hr
      refine ⟨hsound, fun request hr => ?_, fun request hr => ?_⟩
      · obtain ⟨hc, -⟩ := hnew request hr
        simp [Deletion.created, hc]
      · obtain ⟨-, userId, tenantId, requestedBy, hop, rfl⟩ := hnew request hr
        exact h.new userId tenantId requestedBy w.clock (untouched_create (hi.sound.untouched hl) hop)
    | some request =>
      have htouch : Touch guard id w log a w' request := ⟨ha, hl, hi.sound, hi.created request hl⟩
      have hl' := exec_lookup ha.exec hl
      refine ⟨hsound, fun request' hr => ?_, fun request' hr => ?_⟩
      · have hc := hi.created request hl
        simp only [Deletion.created] at hc
        simp [Deletion.created, hc]
      · rw [hl'] at hr
        obtain rfl := Option.some.inj hr
        exact h.act (hi.inv request hl) htouch
  env {w w' log e} hi hw he hg := by
    refine ⟨sound_inductive.env hi.sound hw he hg, fun request hr => ?_, fun request hr => ?_⟩
    · rw [env_requests he] at hr
      simpa [Deletion.created, creates] using hi.created request hr
    · rw [env_requests he] at hr
      exact h.env (hi.inv request hr)

variable {c c' : (vault d).Config}

lemma Lasting.along (h : Lasting guard id inv) (hw : Keyed w) (hn : w.deletionRequests.lookup id = none)
    (hr : Reachable guard (initial w) c) : Along id inv c.state c.log := by
  refine h.inductive.run (handlers_governs d) (conforms_initial hw) ⟨?_, fun request hl => ?_, fun request hl => ?_⟩ hr
  · exact ⟨fun t request hk => by simp [initial, known, handlers] at hk, fun a id ha => by simp [initial] at ha⟩
  · simp [initial, hn] at hl
  · simp [initial, hn] at hl

lemma Lasting.run (h : Lasting guard id inv) (hw : Keyed w) (hn : w.deletionRequests.lookup id = none)
    (hr : Reachable guard (initial w) c) {request : DeletionRequest}
    (hl : c.state.deletionRequests.lookup id = some request) : inv request c.log :=
  (h.along hw hn hr).inv request hl

lemma Lasting.touch (h : Lasting guard id inv) (hw : Keyed w) (hn : w.deletionRequests.lookup id = none)
    (hr : Reachable guard (initial w) c) (hs : Performs guard c a c')
    {request : DeletionRequest} (hl : c.state.deletionRequests.lookup id = some request) :
    Touch guard id c.state c.log a c'.state request ∧ inv request c.log := by
  have ha := h.along hw hn hr
  have hc : Conforms handlers Keyed c := (conforms_initial hw).reachable (handlers_governs d) hr
  exact ⟨⟨hc.allowed_of_performs (handlers_governs d) hs, hl, ha.sound, ha.created request hl⟩, ha.inv request hl⟩

lemma Lasting.serving (h : Lasting guard id inv) (hw : Keyed w) (hn : w.deletionRequests.lookup id = none)
    (hr : Reachable guard (initial w) c) (hs : Performs guard c a c')
    (ha : a.op.serves = some id) :
    ∃ request, Touch guard id c.state c.log a c'.state request ∧ inv request c.log := by
  have hc : Conforms handlers Keyed c := (conforms_initial hw).reachable (handlers_governs d) hr
  obtain ⟨snapshot, hq, hid⟩ := concerns_of_allowed (hc.allowed_of_performs (handlers_governs d) hs).allowed ha
  obtain ⟨request, hl, -⟩ := (h.along hw hn hr).sound.read a.tid snapshot hq
  exact ⟨request, h.touch hw hn hr hs (hid ▸ hl)⟩

/-- What lasts where another discipline is kept as well lasts in every run of its calls. -/
lemma Lasting.serving_within {Q : Type} {D : Discipline Op (fun op => Except String op.Res) Q}
    (hg : Governs (S := vault d) D fun _ => True) (h : Lasting (within D guard) id inv) (hw : Keyed w)
    (hn : w.deletionRequests.lookup id = none) (hr : Reachable guard (initial w) c) (hs : Performs guard c a c')
    (ha : a.op.serves = some id) :
    ∃ request, Touch (within D guard) id c.state c.log a c'.state request ∧ inv request c.log := by
  have hconforms : Conforms D (fun _ => True) (initial w : (vault d).Config) := conforms_initial trivial
  have hr' := hconforms.reachable_within hg hr
  have hs' := (hconforms.reachable hg hr).performs_within hg hs
  exact h.serving hw hn hr' hs' ha

end Request

section Vault

def emptyVault (now : Date) : World := ⟨now, ∅, ∅, [], [], ∅, ∅, ∅⟩

lemma keyed_emptyVault (now : Date) : Keyed (emptyVault now) := fun id request h => by simp [emptyVault] at h

def smallDeployment : Deployment where
  bucketName := "evidence"
  datePath := fun _ => "2026/01/01"
  sha256 := fun certificate => certificate.signature
  document := Collections.documentPath
  tsa := false
  rekor := false
  sourceRedaction := true

abbrev VaultEvent := (vault smallDeployment).Event

def steps (t n : ℕ) : List VaultEvent := List.replicate n (.act t (.done .none))

def requested : List VaultEvent :=
  [.env (.setKey "acme" "ada" [1]), .start (.createRequest "ada" "request" "acme" none)] ++ steps 0 3

def keyShredded : List VaultEvent :=
  requested ++ [.start (.advanceRequest "request" .keyDestroyed "operation")] ++ steps 1 6

def atHubspot : List VaultEvent := [.env (.addDestination "acme" "ada" "hubspot")]

def cascadeLaunched : List VaultEvent :=
  keyShredded ++ atHubspot ++ [.start (.advanceRequest "request" .cascadePending "operation")] ++ steps 2 8

def issued (t : ℕ) : List VaultEvent :=
  [.act t (.done (.findings []))] ++ steps t 5
    ++ [.act t (.done (.text "fingerprint")), .act t (.done (.signed "version" "signature"))] ++ steps t 4

def wiped : List VaultEvent :=
  cascadeLaunched ++ steps 3 2 ++ [.act 3 (.done (.wiped 1 (.ok { success := true, recordsFound := some 1 })))]
    ++ steps 3 6

def ledger : PiiRegistryEntry where
  resourceId := "bigquery:project.sales.orders"
  system := .bigquery
  tenantId := some "acme"
  ownerConnector := manualOwnerConnector
  userIdColumn := some "user_id"
  piiFields := ["email"]
  sourceRedactionStrategy := some .redactInPlace

def redactionLaunched : List VaultEvent :=
  keyShredded ++ [.env (.serveEntries [ledger]), .start (.advanceRequest "request" .cascadePending "operation")]
    ++ steps 2 8 ++ [.pick 3 true] ++ steps 3 1

def redacted : List VaultEvent :=
  redactionLaunched ++ [.act 3 (.done (.rows 2 none))] ++ steps 3 5 ++ (issued 3).take 8

end Vault

end ChameleonVault.Deletion
