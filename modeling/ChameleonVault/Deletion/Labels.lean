import ChameleonVault.Deletion.History
import ChameleonVault.PiiRegistry.Executable
import Mathlib.Data.List.TakeWhile

/-! The labels under which the results of a deletion are recorded, and the last result of each. -/

namespace ChameleonVault.Deletion

open Concurrency Interleaving
open KeyRegistry (Date)
open PiiRegistry (PiiRegistryDeclarationInput buildManualEntry isResourceId isSpace)

section Labels

variable {resourceId label suffix : String} {strategy : SourceRedactionStrategy}

/-- The strategies that a deletion runs have a label for each resource. -/
def destinationOf (resourceId : String) : SourceRedactionStrategy → Option String
  | .redactInPlace => some (resourceId ++ redactInPlaceSuffix)
  | .encryptedCopy => some (resourceId ++ encryptedCopySuffix)
  | .shadowCopy | .none => none

lemma parseLabel_of_last {c c' : Char} (hsuffix : suffix.toList.getLast? = some c)
    (hlabel : label.toList.getLast? = some c') (hne : c ≠ c') : parseLabel suffix label = none := by
  have hends : ¬suffix.toList.isSuffixOf label.toList = true := by
    rw [List.isSuffixOf_iff_suffix]
    rintro ⟨start, h⟩
    rw [← h, List.getLast?_append, hsuffix] at hlabel
    exact hne (Option.some.inj hlabel)
  rw [parseLabel, if_neg hends]

lemma parseSourceRedactionDestination_destinationOf (h : OneLine resourceId)
    (hlabel : destinationOf resourceId strategy = some label) :
    parseSourceRedactionDestination label = some (resourceId, strategy) := by
  cases strategy with
  | redactInPlace =>
    obtain rfl := Option.some.inj hlabel
    rw [parseSourceRedactionDestination, parseLabel_append, if_pos h]
  | encryptedCopy =>
    obtain rfl := Option.some.inj hlabel
    have hlast : (resourceId ++ encryptedCopySuffix).toList.getLast? = some 'Y' := by
      rw [String.toList_append, List.getLast?_append]
      rfl
    have hown : redactInPlaceSuffix.toList.getLast? = some 'E' := rfl
    have hother : parseLabel redactInPlaceSuffix (resourceId ++ encryptedCopySuffix) = none :=
      parseLabel_of_last hown hlast (by decide)
    rw [parseSourceRedactionDestination, hother]
    dsimp only
    rw [parseLabel_append, if_pos h]
  | shadowCopy | none => cases hlabel

lemma colon_mem_label (hlabel : destinationOf resourceId strategy = some label) : ':' ∈ label.toList := by
  cases strategy with
  | redactInPlace | encryptedCopy =>
    obtain rfl := Option.some.inj hlabel
    rw [String.toList_append]
    exact List.mem_append_right _ List.mem_cons_self
  | shadowCopy | none => cases hlabel

lemma hasConnector_label (hlabel : destinationOf resourceId strategy = some label) : hasConnector label = false := by
  have hcolon : ':' ∈ label.toLower.toList := by
    have hmap : label.toLower.toList = label.toList.map Char.toLower := String.toList_map
    rw [hmap]
    exact List.mem_map.mpr ⟨':', colon_mem_label hlabel, rfl⟩
  rw [hasConnector, decide_eq_false_iff_not]
  intro hm
  have hnames : ∀ name ∈ registeredConnectors, ':' ∉ name.toList := by decide
  exact hnames _ hm hcolon

lemma isLineTerminator_of_lowercase {c : Char} (h : PiiRegistry.isLowercase c = true) : isLineTerminator c = false := by
  simp only [PiiRegistry.isLowercase, Bool.and_eq_true, decide_eq_true_eq] at h
  have hlow : 97 ≤ c.toNat := h.1
  have hhigh : c.toNat ≤ 122 := h.2
  simp only [isLineTerminator, Bool.or_eq_false_iff, decide_eq_false_iff_not]
  omega

lemma isLineTerminator_of_not_space {c : Char} (h : isSpace c = false) : isLineTerminator c = false := by
  rw [Bool.eq_false_iff] at h ⊢
  refine fun hline => h ?_
  simp only [isLineTerminator, Bool.or_eq_true, decide_eq_true_eq] at hline
  rcases hline with ((h | h) | h) | h <;> simp [isSpace, h]

lemma oneLine_of_isResourceId (h : isResourceId resourceId = true) : OneLine resourceId := by
  unfold isResourceId at h
  dsimp only at h
  split at h
  · rename_i rest hrest
    simp only [Bool.and_eq_true, decide_eq_true_eq, List.all_eq_true, Bool.not_eq_true'] at h
    obtain ⟨⟨hscheme, -⟩, hspace⟩ := h
    have hsplit : resourceId.toList = resourceId.toList.takeWhile PiiRegistry.isLowercase ++ ':' :: rest := by
      rw [← hrest, List.takeWhile_append_dropWhile]
    refine ⟨?_, ?_⟩
    · rintro rfl
      exact hscheme rfl
    · rw [hsplit, List.any_append, List.any_cons, Bool.or_eq_false_iff, Bool.or_eq_false_iff]
      refine ⟨List.any_eq_false.mpr fun c hc => ?_, rfl, List.any_eq_false.mpr fun c hc => ?_⟩
      · simp [isLineTerminator_of_lowercase (List.mem_takeWhile_imp hc)]
      · simp [isLineTerminator_of_not_space (hspace c hc)]
  · cases h

lemma isResourceId_of_accepted {input : PiiRegistryDeclarationInput} {tenantId nowIso : String}
    {existing : Option PiiRegistry.PiiRegistryEntry} {actorEmail : Option String} {entry : PiiRegistry.PiiRegistryEntry}
    (h : buildManualEntry input tenantId nowIso existing actorEmail = .ok entry) :
    isResourceId entry.resourceId = true := by
  obtain ⟨herrors, rfl⟩ := PiiRegistry.accepted h
  simp only [PiiRegistry.declarationErrors, List.append_eq_nil_iff] at herrors
  obtain ⟨⟨⟨⟨⟨⟨⟨⟨⟨⟨⟨⟨⟨-, hresource⟩, -⟩, -⟩, -⟩, -⟩, -⟩, -⟩, -⟩, -⟩, -⟩, -⟩, -⟩, -⟩ := herrors
  rw [PiiRegistry.resourceIdErrors] at hresource
  split at hresource
  · have hany := PiiRegistry.check_eq_nil.mp hresource
    obtain ⟨resourceId, hid, h⟩ := (Option.any_eq_true _ _).mp hany
    rw [PiiRegistry.manualEntry, hid]
    exact h
  · cases hresource

end Labels

section Reports

variable {d : Deployment} {w w' w₀ : World} {log : (vault d).Log} {id destination : String} {request : DeletionRequest}

/-- Transactions, other operations and steps of the outside world, one after another, whoever they come from. -/
inductive Replayed (d : Deployment) (w₀ : World) : (vault d).Log → World → Prop
  | start : Replayed d w₀ [] w₀
  | act {log : (vault d).Log} {w w' : World} (a : (vault d).Action) (h : Replayed d w₀ log w)
      (he : Op.exec d a.op a.choice w = some (a.reply, w')) : Replayed d w₀ (.act a :: log) w'
  | env {log : (vault d).Log} {w w' : World} (e : Env) (h : Replayed d w₀ log w) (he : e.step w = some w') :
      Replayed d w₀ (.env e :: log) w'

lemma replayed_of_reachable {guard : (vault d).Guard} {c : (vault d).Config} (h : Reachable guard (initial w₀) c) :
    Replayed d w₀ c.log c.state := by
  induction h with
  | refl => exact .start
  | tail _ hs ih =>
    cases hs with
    | start j hj => exact ih
    | pick t next b ht => exact ih
    | act t op next choice reply s ht he hg => exact ih.act ⟨t, op, choice, reply⟩ he
    | env e s he hg => exact ih.env e he

def lastReported (id destination : String) (now : Date) : (vault d).Log → Option JanitorWipe
  | [] => none
  | e :: log => match changeOf id e with
    | some (.wipe destination' status details) =>
      if destination' = destination then some ⟨destination, status, clockAt now log, details⟩
      else lastReported id destination now log
    | _ => lastReported id destination now log

structure KeepsLast (id : String) (now : Date) (log : (vault d).Log) (request : DeletionRequest) : Prop where
  distinct : request.WipesDistinct
  last (destination : String) : request.wipe destination = lastReported id destination now log

lemma wipe_change {e : (vault d).Entry} {now : Date} {wiped : Option JanitorWipe}
    (h : request.wipe destination = wiped) : (Change.after now (changeOf id e) request).wipe destination =
      match changeOf id e with
      | some (.wipe destination' status details) =>
        if destination' = destination then some ⟨destination, status, now, details⟩ else wiped
      | _ => wiped := by
  cases hc : changeOf id e with
  | none => exact h
  | some c =>
    cases c with
    | status newStatus => exact h
    | attach fields => exact h
    | wipe destination' status details =>
      dsimp only [Change.after, Change.apply]
      split
      · rename_i heq
        subst heq
        exact wipe_writeWipe_self _ request
      · rename_i hne
        rw [wipe_writeWipe_ne hne, h]

lemma distinct_change {e : (vault d).Entry} {now : Date} (h : request.WipesDistinct) :
    (Change.after now (changeOf id e) request).WipesDistinct := by
  cases changeOf id e with
  | none => exact h
  | some c =>
    cases c with
    | status newStatus => exact h
    | attach fields => exact h
    | wipe destination status details => exact h.writeWipe _

lemma absent_of_before {a : (vault d).Action} (he : Op.exec d a.op a.choice w = some (a.reply, w'))
    (hn : w'.deletionRequests.lookup id = none) : w.deletionRequests.lookup id = none := by
  cases hl : w.deletionRequests.lookup id with
  | none => rfl
  | some request =>
    rw [exec_lookup he hl] at hn
    cases hn

lemma changeOf_absent {a : (vault d).Action} (he : Op.exec d a.op a.choice w = some (a.reply, w'))
    (hn : w.deletionRequests.lookup id = none) {destination : String} {status : WipeStatus} {details : WipeDetails} :
    changeOf id (.act a : (vault d).Entry) ≠ some (.wipe destination status details) := by
  intro hc
  obtain ⟨t, op, choice, reply⟩ := a
  have heffect : op.edit = some (id, .wipe destination status details) ∧ op.tookEffect choice reply = true := by
    simp only [changeOf] at hc
    split at hc
    · rename_i id' c hedit
      rw [Option.ite_none_right_eq_some] at hc
      obtain ⟨⟨rfl, htook⟩, hchange⟩ := hc
      obtain rfl := Option.some.inj hchange
      exact ⟨hedit, htook⟩
    · cases hc
  obtain ⟨hedit, htook⟩ := heffect
  rcases exec_cases he with ⟨-, answer, r, hrun, -⟩ | ⟨hf, -⟩
  · cases op <;> cases hedit
    have hupdate : w.updateJanitorWipeStatus id destination status details = .ok (r, w') := Option.some.inj hrun
    rw [World.updateJanitorWipeStatus, World.updateRequest, hn] at hupdate
    cases hupdate
  · rw [htook] at hf
    cases hf

lemma keepsLast_of_replayed (hfresh : w₀.deletionRequests.lookup id = none) (h : Replayed d w₀ log w) :
    w.clock = clockAt w₀.clock log ∧
      (w.deletionRequests.lookup id = none → ∀ destination, lastReported id destination w₀.clock log = none) ∧
      ∀ request, w.deletionRequests.lookup id = some request → KeepsLast id w₀.clock log request := by
  induction h with
  | start =>
    refine ⟨rfl, fun _ _ => rfl, fun request hl => ?_⟩
    rw [hfresh] at hl
    cases hl
  | env e h he ih =>
    obtain ⟨hclock, hnone, hstored⟩ := ih
    rw [env_requests he]
    refine ⟨?_, hnone, fun request hl => ⟨(hstored request hl).distinct, (hstored request hl).last⟩⟩
    rw [env_clock he, hclock]
    rfl
  | @act log w w' a h he ih =>
    obtain ⟨hclock, hnone, hstored⟩ := ih
    refine ⟨(exec_clock he).trans hclock, fun hn' destination => ?_, fun request' hl' => ?_⟩
    · have hn := absent_of_before he hn'
      rw [lastReported]
      split
      · rename_i hc
        exact absurd hc (changeOf_absent he hn)
      · exact hnone hn destination
    · cases hl : w.deletionRequests.lookup id with
      | none =>
        obtain ⟨-, userId, tenantId, requestedBy, -, rfl⟩ := exec_created he hl hl'
        refine ⟨List.nodup_nil, fun destination => ?_⟩
        rw [lastReported]
        split
        · rename_i hc
          exact absurd hc (changeOf_absent he hl)
        · exact (hnone hl destination).symm
      | some request =>
        obtain rfl := Option.some.inj ((exec_lookup he hl).symm.trans hl')
        have hkeeps := hstored request hl
        refine ⟨distinct_change hkeeps.distinct, fun destination => ?_⟩
        rw [wipe_change (hkeeps.last destination), hclock]
        rfl

end Reports

section Main

variable {d : Deployment} {w w₀ : World} {log : (vault d).Log} {id label nowIso tenantId : String}
  {request : DeletionRequest} {input : PiiRegistryDeclarationInput} {existing : Option PiiRegistry.PiiRegistryEntry}
  {actorEmail : Option String} {entry : PiiRegistry.PiiRegistryEntry} {strategy : SourceRedactionStrategy}

theorem results_kept_by_label (hdeclared : buildManualEntry input tenantId nowIso existing actorEmail = .ok entry)
    (hlabel : destinationOf entry.resourceId strategy = some label) (hfresh : w₀.deletionRequests.lookup id = none)
    (hrun : Replayed d w₀ log w) (hstored : w.deletionRequests.lookup id = some request) :
    parseSourceRedactionDestination label = some (entry.resourceId, strategy) ∧ hasConnector label = false ∧
      KeepsLast id w₀.clock log request :=
  ⟨parseSourceRedactionDestination_destinationOf (oneLine_of_isResourceId (isResourceId_of_accepted hdeclared)) hlabel,
    hasConnector_label hlabel, (keepsLast_of_replayed hfresh hrun).2.2 request hstored⟩

theorem results_kept_by_label_redacted :
    ∃ c : (vault smallDeployment).Config, ∃ request, Reachable free (initial (emptyVault 0)) c ∧
      c.state.deletionRequests.lookup "request" = some request ∧
      (request.wipe "bigquery:project.sales.orders::REDACT_IN_PLACE").map JanitorWipe.status = some .succeeded ∧
      parseSourceRedactionDestination "bigquery:p.d.users::REDACT_IN_PLACE" =
        some ("bigquery:p.d.users", .redactInPlace) ∧
      KeepsLast "request" 0 c.log request := by
  have hredacted : ∃ c : (vault smallDeployment).Config, Reachable free (initial (emptyVault 0)) c ∧
      ((c.state.deletionRequests.lookup "request").bind fun request =>
        (request.wipe "bigquery:project.sales.orders::REDACT_IN_PLACE").map JanitorWipe.status) = some .succeeded :=
    exists_reachable redacted _ (by decide +kernel)
  obtain ⟨c, hr, hstatus⟩ := hredacted
  obtain ⟨request, hl, hwipe⟩ := Option.bind_eq_some_iff.mp hstatus
  have hdeclared : buildManualEntry PiiRegistry.usersDeclaration "acme" "2026-01-01T00:00:00.000Z" none none =
      .ok (PiiRegistry.usersOf "acme") := PiiRegistry.buildManualEntry_accepts (by decide +kernel)
  have hlabel : destinationOf (PiiRegistry.usersOf "acme").resourceId .redactInPlace =
      some "bigquery:p.d.users::REDACT_IN_PLACE" := rfl
  have hfresh : (emptyVault 0).deletionRequests.lookup "request" = none := rfl
  have hrun : Replayed smallDeployment (emptyVault 0) c.log c.state := replayed_of_reachable hr
  obtain ⟨hparse, -, hkeeps⟩ := results_kept_by_label hdeclared hlabel hfresh hrun hl
  exact ⟨c, request, hr, hl, hwipe, hparse, hkeeps⟩

end Main

end ChameleonVault.Deletion
