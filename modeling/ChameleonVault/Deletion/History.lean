import ChameleonVault.Deletion.Rollback
import Mathlib.Data.List.Chain

/-! The status history of a request beside the status changes that were committed, whoever made them. -/

namespace ChameleonVault.Deletion

open Concurrency Interleaving Discipline
open KeyRegistry (Date arrayUnion)

variable {d : Deployment} {w w' : World} {log : (vault d).Log} {a : (vault d).Action} {id : String}
  {request : DeletionRequest} {now : Date}

section Clock

def Env.clockAfter : Env → Date → Date
  | .tick ms, now => now + ms
  | .setClock now, _ => now
  | _, now => now

def clockAt (now : Date) : (vault d).Log → Date
  | [] => now
  | .env e :: log => e.clockAfter (clockAt now log)
  | .act _ :: log => clockAt now log

lemma updateRequest_clock {missing : String} {f : DeletionRequest → DeletionRequest} {u : Unit}
    (h : w.updateRequest id missing f = .ok (u, w')) : w'.clock = w.clock := by
  simp only [World.updateRequest] at h
  split at h
  · contradiction
  · obtain ⟨-, rfl⟩ := Prod.mk.inj (Except.ok.inj h)
    rfl

lemma writeKey_clock {userId tenantId : String} {write : KeyRegistry.KeyWrite} {u : Unit}
    (h : w.writeKey userId tenantId write = .ok (u, w')) : w'.clock = w.clock := by
  simp only [World.writeKey, bind, Except.bind] at h
  split at h
  · contradiction
  · obtain ⟨-, rfl⟩ := Prod.mk.inj (Except.ok.inj h)
    rfl

lemma updateEntry_clock {hash : String} {f : CertificateChainEntry → CertificateChainEntry} {u : Unit}
    (h : w.updateEntry hash f = .ok (u, w')) : w'.clock = w.clock := by
  simp only [World.updateEntry] at h
  split at h
  · contradiction
  · obtain ⟨-, rfl⟩ := Prod.mk.inj (Except.ok.inj h)
    rfl

lemma run_clock {op : Op} {answer : Answer} {r : op.Res} (h : op.run d answer w = some (.ok (r, w'))) :
    w'.clock = w.clock := by
  cases op
  case createDeletionRequest =>
    obtain ⟨-, rfl⟩ := Prod.mk.inj (Except.ok.inj (Option.some.inj h))
    split <;> rfl
  case claimTransition =>
    rcases claimTransition_cases (Option.some.inj h) with ⟨current, -, -, -, rfl⟩ | ⟨current, -, rfl⟩ <;> rfl
  case updateDeletionRequestStatus => exact updateRequest_clock (Option.some.inj h)
  case updateDeletionRequestFields =>
    rcases updateDeletionRequestFields_cases (Option.some.inj h) with ⟨-, rfl⟩ | hu
    · rfl
    · exact updateRequest_clock hu
  case updateJanitorWipeStatus => exact updateRequest_clock (Option.some.inj h)
  case shredKeyForUser => exact writeKey_clock (Option.some.inj h)
  case recordTsaTimestamp => exact updateEntry_clock (Option.some.inj h)
  case recordRekorEntry => exact updateEntry_clock (Option.some.inj h)
  case wipe =>
    cases answer <;> try cases h
    rename_i found result
    cases result with
    | error e => cases h
    | ok result =>
      simp only [Op.run] at h
      split at h
      · cases h
        rfl
      · contradiction
  case runQuery =>
    cases answer <;> try cases h
    rename_i affected failure
    cases failure <;> cases h
    rfl
  all_goals cases answer
  all_goals try cases h
  all_goals rfl

lemma exec_clock {op : Op} {choice : Outcome} {reply : Except String op.Res}
    (h : op.exec d choice w = some (reply, w')) : w'.clock = w.clock := by
  rcases exec_cases h with ⟨-, answer, r, hrun, -⟩ | ⟨-, rfl⟩
  · exact run_clock hrun
  · rfl

lemma env_key_clock {userId tenantId : String} {write : KeyRegistry.KeyWrite}
    (h : ((w.writeKey userId tenantId write).toOption).map Prod.snd = some w') : w'.clock = w.clock := by
  cases hk : w.writeKey userId tenantId write with
  | error e => simp [hk, Except.toOption] at h
  | ok r =>
    simp only [hk, Except.toOption, Option.map_some, Option.some.injEq] at h
    rw [← h]
    exact writeKey_clock hk

lemma env_clock {e : Env} (h : e.step w = some w') : w'.clock = e.clockAfter w.clock := by
  cases e with
  | tick ms => cases h; rfl
  | setClock now => cases h; rfl
  | setKey tenantId userId dek =>
    have hk : ((w.writeKey userId tenantId (.set userId dek)).toOption).map Prod.snd = some w' := h
    exact env_key_clock hk
  | rotateKey tenantId userId deks activeDekId =>
    have hk : ((w.writeKey userId tenantId (.rotate deks activeDekId)).toOption).map Prod.snd = some w' := h
    exact env_key_clock hk
  | addDestination tenantId userId destination =>
    have hk : ((w.writeKey userId tenantId (.addDestination destination)).toOption).map Prod.snd = some w' := h
    exact env_key_clock hk
  | serveEntries entries => cases h; rfl
  | declareEntries entries => cases h; rfl

end Clock

section Trail

/-- A status change as it was committed, with the claim that its caller held and whether its caller
had found nothing to clean up. -/
structure Committed where
  entry : StatusEntry
  undoes : Option Status := none
  emptyPlan : Bool := false

def Knowledge.commit (newStatus : Status) (now : Date) (q : Knowledge) : Committed :=
  ⟨⟨newStatus, now⟩, q.claim, q.emptyPlan⟩

def trail (id : String) (now : Date) : (vault d).Log → List Committed
  | [] => []
  | .env _ :: log => trail id now log
  | .act a :: log =>
    match statusOf id (.act a) with
    | some newStatus => trail id now log ++ [(handlers.known a.tid log).commit newStatus (clockAt now log)]
    | none =>
      if creates id (.act a) = true ∧ trail id now log = [] then [{ entry := ⟨.shredRequested, clockAt now log⟩ }]
      else trail id now log

inductive Committed.Follows (previous next : Committed) : Prop
  | transition : isValidTransition previous.entry.status next.entry.status = true → Follows previous next
  | shortcut : next.emptyPlan = true → next.entry.status = .cascadeComplete →
      isValidTransition previous.entry.status .cascadePending = true ∨
        isValidTransition previous.entry.status .cascadeInProgress = true → Follows previous next
  | rollback : next.undoes = some previous.entry.status →
      isValidTransition next.entry.status previous.entry.status = true → Follows previous next

structure Faithful (request : DeletionRequest) (commits : List Committed) : Prop where
  history : request.statusHistory = commits.map Committed.entry
  current : request.statusHistory.getLast?.map StatusEntry.status = some request.status
  steps : commits.IsChain Committed.Follows

/-- The status that a call takes to be stored: the one it claimed, or else the one it read. -/
def Knowledge.expected (q : Knowledge) : Option Status := q.claim.or (q.request.map DeletionRequest.status)

/-- A write without a claim finds the status that its caller takes to be stored, and no status is
written again at the same time. -/
def undisplaced (id : String) : (vault d).Guard := fun w log e =>
  (match e with
    | .act a => match statusOf id e, w.deletionRequests.lookup id with
      | some newStatus, some request => decide (⟨newStatus, w.clock⟩ ∉ request.statusHistory)
          && (a.op.isClaim || decide ((handlers.known a.tid log).expected = some request.status))
      | _, _ => true
    | .env _ => true) = true

instance : ∀ w log e, Decidable (@undisplaced d id w log e) := fun _ _ _ => inferInstanceAs (Decidable (_ = true))

lemma Faithful.ne_nil {commits : List Committed} (h : Faithful request commits) : commits ≠ [] := by
  rintro rfl
  have hcurrent := h.current
  rw [h.history] at hcurrent
  cases hcurrent

lemma Faithful.last {commits : List Committed} (h : Faithful request commits) {previous : Committed}
    (hp : commits.getLast? = some previous) : previous.entry.status = request.status := by
  have hcurrent := h.current
  rw [h.history, List.getLast?_map, hp] at hcurrent
  exact Option.some.inj hcurrent

lemma Faithful.append {commits : List Committed} (h : Faithful request commits) {commit : Committed}
    (hnew : commit.entry ∉ request.statusHistory)
    (hfollows : ∀ previous : Committed, previous.entry.status = request.status → previous.Follows commit) :
    Faithful (request.writeStatus commit.entry.status commit.entry.timestamp) (commits ++ [commit]) where
  history := by
    have hunion : arrayUnion request.statusHistory commit.entry = request.statusHistory ++ [commit.entry] := if_neg hnew
    rw [DeletionRequest.writeStatus, hunion, h.history, List.map_append]
    rfl
  current := by
    have hunion : arrayUnion request.statusHistory commit.entry = request.statusHistory ++ [commit.entry] := if_neg hnew
    rw [DeletionRequest.writeStatus, hunion, List.getLast?_append]
    rfl
  steps := by
    refine List.isChain_append.mpr ⟨h.steps, List.isChain_singleton _, ?_⟩
    intro previous hp next hn
    obtain rfl := Option.some.inj hn
    exact hfollows previous (h.last hp)

def Status.MayFollow (previous next : Status) : Prop :=
  isValidTransition previous next = true ∨ next = .cascadeComplete ∨ isValidTransition next previous = true

lemma Committed.Follows.mayFollow {previous next : Committed} (h : previous.Follows next) :
    previous.entry.status.MayFollow next.entry.status := by
  cases h with
  | transition hv => exact .inl hv
  | shortcut he hs hv => exact .inr (.inl hs)
  | rollback hu hv => exact .inr (.inr hv)

lemma Faithful.statuses {commits : List Committed} (h : Faithful request commits) :
    (request.statusHistory.map StatusEntry.status).IsChain Status.MayFollow := by
  rw [h.history, List.map_map, List.isChain_map]
  exact h.steps.imp fun previous next hf => hf.mayFollow

lemma MayWrite.follows {q : Knowledge} {snapshot : DeletionRequest} {newStatus : Status} {previous : Committed}
    (hm : MayWrite q snapshot newStatus) (hq : q.request = some snapshot)
    (hexpected : q.expected = some previous.entry.status) : previous.Follows (q.commit newStatus now) := by
  cases hm with
  | keyRollback hc hs =>
    have hp : previous.entry.status = .keyDestroyed := by simpa [Knowledge.expected, hc] using hexpected.symm
    exact .rollback (by rw [hp]; exact hc) (by rw [hp]; rfl)
  | certificateRollback hc hs =>
    have hp : previous.entry.status = .certificateIssued := by simpa [Knowledge.expected, hc] using hexpected.symm
    exact .rollback (by rw [hp]; exact hc) (by rw [hp]; rfl)
  | finished hc hs =>
    have hp : previous.entry.status = snapshot.status := by simpa [Knowledge.expected, hc, hq] using hexpected.symm
    refine .transition ?_
    rw [hp]
    rcases hs with hs | hs <;> rw [hs] <;> rfl
  | shortcut hc he hv =>
    have hp : previous.entry.status = snapshot.status := by simpa [Knowledge.expected, hc, hq] using hexpected.symm
    refine .shortcut he rfl ?_
    rw [hp]
    exact hv

end Trail

section Runs

variable {guard : (vault d).Guard}

/-- The request as it is stored, or its absence, and the clock, as the log has them. -/
structure Traced (id : String) (now : Date) (w : World) (log : (vault d).Log) : Prop where
  sound : Sound w log
  clock : w.clock = clockAt now log
  absent : w.deletionRequests.lookup id = none → trail id now log = []
  faithful (request : DeletionRequest) : w.deletionRequests.lookup id = some request → Faithful request (trail id now log)

lemma statusOf_absent (hs : Sound w log) (ha : Allowed handlers Keyed guard w log a w')
    (hn : w.deletionRequests.lookup id = none) : statusOf id (.act a) = none := by
  rw [Option.eq_none_iff_forall_not_mem]
  intro newStatus hstatus
  obtain ⟨snapshot, hq, hid⟩ := concerns_of_allowed ha.allowed (serves_of_statusOf hstatus)
  obtain ⟨stored, hl, -⟩ := hs.read a.tid snapshot hq
  rw [hid, hn] at hl
  contradiction

lemma stored_of_creates (he : Op.exec d a.op a.choice w = some (a.reply, w')) (hc : creates id (.act a) = true) :
    ∃ request, w'.deletionRequests.lookup id = some request := by
  obtain ⟨t, op, choice, reply⟩ := a
  cases op <;> try contradiction
  rename_i userId id' tenantId requestedBy
  simp only [creates, Bool.and_eq_true, decide_eq_true_eq] at hc
  obtain ⟨rfl, ht⟩ := hc
  rcases exec_cases he with ⟨-, answer, r, hrun, -⟩ | ⟨hf, -⟩
  · obtain ⟨-, rfl⟩ := Prod.mk.inj (Except.ok.inj (Option.some.inj hrun))
    cases hl : w.deletionRequests.lookup id' with
    | some request => exact ⟨request, by simp [hl]⟩
    | none => exact ⟨_, by simp [World.putRequest]; rfl⟩
  · simp only at hf
    rw [ht] at hf
    contradiction

lemma change_status {e : (vault d).Entry} {newStatus : Status} (h : statusOf id e = some newStatus) :
    Change.after now (changeOf id e) request = request.writeStatus newStatus now := by
  rw [statusOf_eq.mp h]
  rfl

lemma change_frame {e : (vault d).Entry} (h : statusOf id e = none) :
    (Change.after now (changeOf id e) request).status = request.status ∧
      (Change.after now (changeOf id e) request).statusHistory = request.statusHistory := by
  simp only [statusOf] at h
  cases hc : changeOf id e with
  | none => exact ⟨rfl, rfl⟩
  | some c =>
    rw [hc] at h
    cases c with
    | status newStatus => contradiction
    | attach fields => exact ⟨rfl, rfl⟩
    | wipe destination status details => exact ⟨rfl, rfl⟩

lemma Traced.act (h : Traced id now w log) (ha : Allowed handlers Keyed (undisplaced id) w log a w') :
    Traced id now w' (.act a :: log) where
  sound := h.sound.act ha
  clock := (exec_clock ha.exec).trans h.clock
  absent hn' := by
    have hn : w.deletionRequests.lookup id = none := by
      cases hl : w.deletionRequests.lookup id with
      | none => rfl
      | some request => exact absurd (exec_lookup ha.exec hl) (by simp [hn'])
    have hc : creates id (.act a) = false := by
      rw [Bool.eq_false_iff]
      intro hc
      obtain ⟨request, hl⟩ := stored_of_creates ha.exec hc
      rw [hn'] at hl
      contradiction
    simp [trail, statusOf_absent h.sound ha hn, hc, h.absent hn]
  faithful request' hl' := by
    cases hl : w.deletionRequests.lookup id with
    | none =>
      obtain ⟨hc, userId, tenantId, requestedBy, -, rfl⟩ := exec_created ha.exec hl hl'
      have htrail : trail id now (.act a :: log) = [{ entry := ⟨.shredRequested, clockAt now log⟩ }] := by
        simp [trail, statusOf_absent h.sound ha hl, hc, h.absent hl]
      rw [htrail, ← h.clock]
      exact ⟨rfl, rfl, List.isChain_singleton _⟩
    | some request =>
      have hf : Faithful request (trail id now log) := h.faithful request hl
      have hafter := (exec_lookup ha.exec hl).symm.trans hl'
      obtain rfl := Option.some.inj hafter
      cases hs : statusOf id (.act a) with
      | none =>
        have htrail : trail id now (.act a :: log) = trail id now log := by simp [trail, hs, hf.ne_nil]
        obtain ⟨hstatus, hhistory⟩ : (Change.after w.clock (changeOf id (.act a)) request).status = request.status ∧
            (Change.after w.clock (changeOf id (.act a)) request).statusHistory = request.statusHistory := change_frame hs
        rw [htrail]
        exact ⟨hhistory.trans hf.history, by rw [hhistory, hstatus]; exact hf.current, hf.steps⟩
      | some newStatus =>
        have htrail : trail id now (.act a :: log) =
            trail id now log ++ [(handlers.known a.tid log).commit newStatus w.clock] := by simp [trail, hs, h.clock]
        have hguard := ha.guard
        simp only [undisplaced, hs, hl, Bool.and_eq_true, Bool.or_eq_true, decide_eq_true_eq] at hguard
        rw [htrail, change_status hs]
        have hnew : ((handlers.known a.tid log).commit newStatus w.clock).entry ∉ request.statusHistory := hguard.1
        refine hf.append hnew fun previous hp => ?_
        cases hclaim : a.op.isClaim with
        | true =>
          obtain ⟨snapshot, -, -, -, hv⟩ := claim_cases ha hl (statusOf_eq.mp hs) hclaim
          exact .transition (by rw [hp]; exact hv)
        | false =>
          obtain ⟨snapshot, hq, hm⟩ := write_cases ha (statusOf_eq.mp hs) hclaim
          have hexpected := hguard.2.resolve_left (by simp [hclaim])
          exact hm.follows hq.1 (by rw [hp]; exact hexpected)

lemma traced_inductive : Inductive handlers Keyed (@undisplaced d id) (Traced id now) where
  act h ha := h.act ha
  env {w w' log e} h hw he hg := by
    have hrequests := env_requests he
    refine ⟨sound_inductive.env h.sound hw he hg, ?_, fun hn => ?_, fun request hl => ?_⟩
    · rw [env_clock he, h.clock]
      rfl
    · rw [hrequests] at hn
      exact h.absent hn
    · rw [hrequests] at hl
      exact h.faithful request hl

theorem history_is_faithful (hw : Keyed w) (hn : w.deletionRequests.lookup id = none) {c : (vault d).Config}
    (hr : Reachable (undisplaced id) (initial w) c) (hl : c.state.deletionRequests.lookup id = some request) :
    Faithful request (trail id w.clock c.log) := by
  have hstart : Traced (d := d) id w.clock w [] :=
    ⟨⟨fun t request hk => by simp [known, handlers] at hk, fun a id ha => by simp at ha⟩, rfl, fun _ => rfl, fun request hl => by rw [hn] at hl; contradiction⟩
  exact (traced_inductive.run (handlers_governs d) (conforms_initial hw) hstart hr).faithful request hl

def rolledBack (ms : Date) : List VaultEvent :=
  keyClaimed ++ [.act 1 .failed, .env (.tick ms)] ++ steps 1 1

theorem history_is_faithful_rolledBack :
    ∃ (c : (vault smallDeployment).Config) (request : DeletionRequest),
      Reachable (undisplaced "request") (initial (emptyVault 0)) c ∧
      c.state.deletionRequests.lookup "request" = some request ∧
      request.statusHistory = [⟨.shredRequested, 0⟩, ⟨.keyDestroyed, 0⟩, ⟨.shredRequested, 5⟩] ∧
      Faithful request (trail "request" 0 c.log) := by
  have h : ∃ (c : (vault smallDeployment).Config), Reachable (undisplaced "request") (initial (emptyVault 0)) c ∧
      (c.state.deletionRequests.lookup "request").map DeletionRequest.statusHistory =
        some [⟨.shredRequested, 0⟩, ⟨.keyDestroyed, 0⟩, ⟨.shredRequested, 5⟩] :=
    exists_reachable (rolledBack 5) _ (by decide +kernel)
  obtain ⟨c, hr, hh⟩ := h
  obtain ⟨request, hl, hh⟩ := Option.map_eq_some_iff.mp hh
  exact ⟨c, request, hr, hl, hh, history_is_faithful (keyed_emptyVault 0) rfl hr hl⟩

/-- A shred that fails within the millisecond of its request leaves a rollback that the history drops, and
a rollback of another shred lands on the status that a later call has reached. -/
theorem history_is_not_a_trace :
    (∃ (c : (vault smallDeployment).Config) (request : DeletionRequest),
      Reachable free (initial (emptyVault 0)) c ∧ c.state.deletionRequests.lookup "request" = some request ∧
      request.status = .shredRequested ∧
      request.statusHistory.getLast?.map StatusEntry.status = some .keyDestroyed ∧
      ¬ Faithful request (trail "request" 0 c.log)) ∧
    ∃ (c : (vault smallDeployment).Config) (request : DeletionRequest),
      Reachable free (initial (emptyVault 0)) c ∧ c.state.deletionRequests.lookup "request" = some request ∧
      request.statusHistory.map StatusEntry.status = [.shredRequested, .keyDestroyed, .cascadePending, .shredRequested] ∧
      ¬ Faithful request (trail "request" 0 c.log) := by
  constructor
  · have h : ∃ (c : (vault smallDeployment).Config), Reachable free (initial (emptyVault 0)) c ∧
        (c.state.deletionRequests.lookup "request").map
            (fun request => (request.status, request.statusHistory.getLast?.map StatusEntry.status)) =
          some (.shredRequested, some .keyDestroyed) :=
      exists_reachable (rolledBack 0) _ (by decide +kernel)
    obtain ⟨c, hr, hs⟩ := h
    obtain ⟨request, hl, hs⟩ := Option.map_eq_some_iff.mp hs
    obtain ⟨hstatus, hlast⟩ := Prod.mk.inj hs
    refine ⟨c, request, hr, hl, hstatus, hlast, fun hf => ?_⟩
    have hcurrent := hf.current
    rw [hlast, hstatus] at hcurrent
    contradiction
  · have h : ∃ (c : (vault smallDeployment).Config), Reachable free (initial (emptyVault 0)) c ∧
        (c.state.deletionRequests.lookup "request").map
            (fun request => request.statusHistory.map StatusEntry.status) =
          some [.shredRequested, .keyDestroyed, .cascadePending, .shredRequested] :=
      exists_reachable (advancedDuringShred ++ [.env (.tick 5)] ++ steps 1 1) _ (by decide +kernel)
    obtain ⟨c, hr, hs⟩ := h
    obtain ⟨request, hl, hs⟩ := Option.map_eq_some_iff.mp hs
    refine ⟨c, request, hr, hl, hs, fun hf => ?_⟩
    have hchain := hf.statuses
    rw [hs] at hchain
    simp [Status.MayFollow, isValidTransition, transitions] at hchain

end Runs

end ChameleonVault.Deletion
