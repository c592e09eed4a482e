import ChameleonVault.Concurrency.Traces
import ChameleonVault.Deletion.Cascade

/-! The janitor's run over a cleanup plan, whatever its connectors and its sinks do. -/

namespace ChameleonVault.Deletion

open Concurrency Call
open KeyRegistry (KeyStatus truthy)

section Rejections

/-- A value that a promise is rejected with: what it reads as, unless it cannot be made a string, and
whether it is undefined or null. -/
structure Rejection where
  text : Option String
  isNullish : Bool := false

def typeError (message : String) : Rejection := { text := some message }

instance : Thrown Rejection where
  text err := match err.text with
    | some text => .ok text
    | none => .error (typeError "Cannot convert object to primitive value")
  message err :=
    if err.isNullish then
      .error (typeError ("Cannot read properties of " ++ err.text.getD "" ++ " (reading 'message')"))
    else .ok (err.text.getD "")

abbrev JanitorExchange := Exchange Op fun op => Except Rejection op.Res

abbrev Transcript := List JanitorExchange

/-- A rejection over which the janitor itself throws, when it reports it. -/
def isHarmful (e : JanitorExchange) : Bool :=
  match e with
  | ⟨.wipe _ _ _ _, .error err⟩ => err.text.isNone
  | ⟨.publishFailedWipe _ _ _, .error err⟩ => err.isNullish
  | _ => false

end Rejections

section Attempts

abbrev WipeReply := Except Rejection WipeResult

def WipeReply.succeeded : WipeReply → Bool
  | .ok response => response.success
  | .error _ => false

/-- A success, or a failure that no retry can mend. A rejection says nothing, and is retried. -/
def WipeReply.isFinal : WipeReply → Bool
  | .ok response => response.success || !response.retryable.getD true
  | .error _ => false

def wipeReply? (e : JanitorExchange) : Option WipeReply :=
  match e with
  | ⟨.wipe _ _ _ _, reply⟩ => some reply
  | _ => none

def attempts (log : Transcript) : List WipeReply := log.filterMap wipeReply?

def deadLetter? (e : JanitorExchange) : Option (String × String) :=
  match e with
  | ⟨.publishFailedWipe userId destination _, _⟩ => some (userId, destination)
  | _ => none

def deadLetters (log : Transcript) : List (String × String) := log.filterMap deadLetter?

/-- What the janitor asks for a task: events, wipes of its destination and its dead letter. -/
def IsAbout (id userId tenantId destination : String) : Op → Prop
  | .recordEvent event => event.userId = userId ∧ event.tenantId = tenantId ∧ event.destination = destination
  | .wipe id' destination' userId' tenantId' =>
    id' = id ∧ destination' = destination ∧ userId' = userId ∧ tenantId' = tenantId
  | .publishFailedWipe userId' destination' _ => userId' = userId ∧ destination' = destination
  | _ => False

/-- The attempts of one task: no further one after a final one, and none given up before the limit. -/
structure Tried (limit : ℕ) (replies : List WipeReply) : Prop where
  atMost : replies.length ≤ limit
  stops (reply : WipeReply) : reply ∈ replies.dropLast → reply.isFinal = false
  persists : (replies.getLast?.any WipeReply.isFinal) = true ∨ replies.length = limit

structure TaskRun (id userId tenantId : String) (task result : JanitorTask) (log : Transcript) : Prop where
  concerns (e : JanitorExchange) : e ∈ log → IsAbout id userId tenantId task.destination e.op
  destination : result.destination = task.destination
  atLeastOnce : attempts log ≠ []
  tried : Tried JanitorService.maxRetries (attempts log)
  counted : result.attempts = (attempts log).length
  status : result.status = if (attempts log).any WipeReply.succeeded then .complete else .failed
  found : result.recordsFound = ((attempts log).find? WipeReply.succeeded).bind fun reply =>
    reply.toOption.bind (·.recordsFound)
  deadLetter : deadLetters log = if result.status = .complete then [] else [(userId, task.destination)]

end Attempts

section Loop

variable {id userId tenantId destination lastError : String} {limit made : ℕ} {log : Transcript} {op : Op}
  {reply : WipeReply} {replies : List WipeReply}

lemma tried_nil : Tried 0 [] := ⟨le_refl 0, fun _ h => absurd h List.not_mem_nil, .inr rfl⟩

lemma tried_final (h : reply.isFinal = true) : Tried (limit + 1) [reply] :=
  ⟨Nat.succ_le_succ (Nat.zero_le limit), fun _ h => absurd h List.not_mem_nil, .inl h⟩

lemma Tried.cons (h : Tried limit replies) (hreply : reply.isFinal = false) : Tried (limit + 1) (reply :: replies) where
  atMost := Nat.succ_le_succ h.atMost
  stops reply' hm := by
    cases replies with
    | nil => exact absurd hm List.not_mem_nil
    | cons second rest =>
      rcases List.mem_cons.mp hm with rfl | hm
      · exact hreply
      · exact h.stops reply' hm
  persists := by
    rcases h.persists with hfinal | hlength
    · refine .inl ?_
      cases replies with
      | nil => cases hfinal
      | cons second rest => exact hfinal
    · exact .inr (congrArg Nat.succ hlength)

structure Looped (id userId tenantId destination : String) (limit made : ℕ) (outcome : JanitorService.WipeOutcome)
    (log : Transcript) : Prop where
  concerns (e : JanitorExchange) : e ∈ log → IsAbout id userId tenantId destination e.op
  harmless (e : JanitorExchange) : e ∈ log → isHarmful e = false
  tried : Tried limit (attempts log)
  counted : outcome.attempts = made + (attempts log).length
  success : outcome.success = (attempts log).any WipeReply.succeeded
  found : outcome.recordsFound = ((attempts log).find? WipeReply.succeeded).bind fun reply =>
    reply.toOption.bind (·.recordsFound)
  silent : deadLetters log = []

/-- The janitor throws, over a rejection it was given. -/
def Rejects {α : Type} (r : Except Rejection α) (log : Transcript) : Prop :=
  (∃ e, r = .error e) ∧ ∃ x ∈ log, isHarmful x = true

lemma not_rejects_ok {α : Type} {a : α} : ¬ Rejects (.ok a) log := by
  rintro ⟨⟨e, he⟩, -⟩
  cases he

lemma Rejects.append {α : Type} {r : Except Rejection α} {rest : Transcript} (h : Rejects r rest) (first : Transcript) :
    Rejects r (first ++ rest) := by
  obtain ⟨he, x, hx, hharmful⟩ := h
  exact ⟨he, x, List.mem_append_right first hx, hharmful⟩

lemma Rejects.of_error {α β : Type} {r : Except Rejection α} (h : Rejects r log) (e : Rejection) :
    Rejects (.error e : Except Rejection β) log :=
  ⟨⟨e, rfl⟩, h.2⟩

lemma traces_recordEvent {event : LineageEvent} {r : Except Rejection Unit}
    (h : Traces (quietly (recordEvent event)).run log r) : r = .ok () ∧ ∃ reply, log = [⟨.recordEvent event, reply⟩] :=
  traces_quietly (fun _ _ h => ⟨_, traces_perform_iff.mp h⟩) h

/-- A rejected promise is taken for a failed response. -/
def WipeReply.response : WipeReply → WipeResult
  | .ok response => response
  | .error err => { success := false, error := err.text }

lemma traces_attempt {r : Except Rejection WipeResult}
    (h : Traces (JanitorService.attempt id destination userId tenantId).run log r) : Rejects r log ∨
    ∃ reply : WipeReply, r = .ok reply.response ∧ log = [⟨.wipe id destination userId tenantId, reply⟩] ∧
      isHarmful ⟨.wipe id destination userId tenantId, reply⟩ = false := by
  rcases traces_tryCatch_iff.mp h with ⟨response, hx, rfl⟩ | ⟨e, first, rest, hx, hf, rfl⟩
  · exact .inr ⟨.ok response, rfl, traces_perform_iff.mp hx, rfl⟩
  · obtain rfl := traces_perform_iff.mp hx
    obtain ⟨text, isNullish⟩ := e
    cases text with
    | some text =>
      rcases traces_call_bind_iff.mp hf with ⟨error, second, last, hread, hpure, rfl⟩ | ⟨e, he, -⟩
      · obtain ⟨rfl, herror⟩ := traces_orThrow_iff.mp hread
        obtain rfl := Except.ok.inj herror
        obtain ⟨rfl, rfl⟩ := traces_pure_iff.mp hpure
        exact .inr ⟨.error ⟨some error, isNullish⟩, rfl, rfl, rfl⟩
      · cases (traces_orThrow_iff.mp he).2
    | none =>
      rcases traces_call_bind_iff.mp hf with ⟨error, second, last, hread, -, -⟩ | ⟨e, -, rfl⟩
      · cases (traces_orThrow_iff.mp hread).2
      · exact .inl ⟨⟨e, rfl⟩, _, List.mem_append_left rest (List.mem_singleton_self _), rfl⟩

lemma looped_attempt {event : LineageEvent} {started : Except Rejection Unit} {outcome : JanitorService.WipeOutcome}
    (hevent : event.userId = userId ∧ event.tenantId = tenantId ∧ event.destination = destination)
    (hharmless : isHarmful ⟨.wipe id destination userId tenantId, reply⟩ = false)
    (hfinal : reply.isFinal = true) (hattempts : outcome.attempts = made + 1)
    (hsuccess : outcome.success = reply.response.success)
    (hfound : outcome.recordsFound = if reply.response.success then reply.response.recordsFound else none) :
    Looped id userId tenantId destination (limit + 1) made outcome
      [⟨.recordEvent event, started⟩, ⟨.wipe id destination userId tenantId, reply⟩] where
  concerns e hm := by
    simp only [List.mem_cons, List.not_mem_nil, or_false] at hm
    rcases hm with rfl | rfl
    · exact hevent
    · exact ⟨rfl, rfl, rfl, rfl⟩
  harmless e hm := by
    simp only [List.mem_cons, List.not_mem_nil, or_false] at hm
    rcases hm with rfl | rfl
    · rfl
    · exact hharmless
  tried := tried_final hfinal
  counted := hattempts
  success := by
    rw [hsuccess]
    cases reply with
    | ok response => simp [attempts, wipeReply?, WipeReply.succeeded, WipeReply.response]
    | error e => rfl
  found := by
    rw [hfound]
    cases reply with
    | ok response =>
      cases hs : response.success <;>
        simp [attempts, wipeReply?, WipeReply.succeeded, WipeReply.response, hs, Except.toOption]
    | error e => rfl
  silent := rfl

lemma succeeded_of_not_final {reply : WipeReply} (h : reply.isFinal = false) : reply.succeeded = false := by
  cases reply with
  | ok response => exact (Bool.or_eq_false_iff.mp h).1
  | error e => rfl

lemma Looped.retry {event : LineageEvent} {started : Except Rejection Unit} {outcome : JanitorService.WipeOutcome}
    (h : Looped id userId tenantId destination limit (made + 1) outcome log)
    (hevent : event.userId = userId ∧ event.tenantId = tenantId ∧ event.destination = destination)
    (hharmless : isHarmful ⟨.wipe id destination userId tenantId, reply⟩ = false)
    (hfinal : reply.isFinal = false) : Looped id userId tenantId destination (limit + 1) made outcome
      (⟨.recordEvent event, started⟩ :: ⟨.wipe id destination userId tenantId, reply⟩ :: log) where
  concerns e hm := by
    rcases List.mem_cons.mp hm with rfl | hm
    · exact hevent
    rcases List.mem_cons.mp hm with rfl | hm
    · exact ⟨rfl, rfl, rfl, rfl⟩
    · exact h.concerns e hm
  harmless e hm := by
    rcases List.mem_cons.mp hm with rfl | hm
    · rfl
    rcases List.mem_cons.mp hm with rfl | hm
    · exact hharmless
    · exact h.harmless e hm
  tried := h.tried.cons hfinal
  counted := by
    rw [h.counted]
    simp only [attempts, wipeReply?, List.filterMap_cons, List.length_cons]
    omega
  success := by simpa [attempts, wipeReply?, succeeded_of_not_final hfinal] using h.success
  found := by simpa [attempts, wipeReply?, succeeded_of_not_final hfinal] using h.found
  silent := h.silent

lemma traces_wipeAttempts {r : Except Rejection JanitorService.WipeOutcome}
    (h : Traces (JanitorService.wipeAttempts id userId tenantId destination limit made lastError).run log r) :
    Rejects r log ∨ ∃ outcome, r = .ok outcome ∧ Looped id userId tenantId destination limit made outcome log := by
  induction limit generalizing made lastError log r with
  | zero =>
    obtain ⟨rfl, rfl⟩ := traces_pure_iff.mp h
    exact .inr ⟨_, rfl, fun e hm => absurd hm List.not_mem_nil, fun e hm => absurd hm List.not_mem_nil, tried_nil,
      rfl, rfl, rfl, rfl⟩
  | succ limit ih =>
    rw [JanitorService.wipeAttempts] at h
    rcases traces_call_bind_iff.mp h with ⟨_, first, rest, hevent, hrest, rfl⟩ | ⟨e, he, -⟩
    swap
    · cases (traces_recordEvent he).1
    obtain ⟨-, started, rfl⟩ := traces_recordEvent hevent
    rcases traces_call_bind_iff.mp hrest with ⟨response, second, last, hwipe, hlast, rfl⟩ | ⟨e, he, rfl⟩
    swap
    · rcases traces_attempt he with hrejects | ⟨reply, hreply, -⟩
      · exact .inl ((hrejects.of_error e).append _)
      · cases hreply
    rcases traces_attempt hwipe with hrejects | ⟨reply, hreply, rfl, hharmless⟩
    · exact absurd hrejects not_rejects_ok
    obtain rfl := Except.ok.inj hreply
    by_cases hs : reply.response.success = true
    · rw [if_pos hs] at hlast
      obtain ⟨rfl, rfl⟩ := traces_pure_iff.mp hlast
      have hfinal : reply.isFinal = true := by
        cases reply with
        | ok response => exact Bool.or_eq_true_iff.mpr (.inl hs)
        | error e => cases hs
      exact .inr ⟨_, rfl, looped_attempt ⟨rfl, rfl, rfl⟩ hharmless hfinal rfl hs.symm (if_pos hs).symm⟩
    rw [if_neg hs] at hlast
    have hfinal : reply.isFinal = !reply.response.retryable.getD true := by
      cases reply with
      | ok response =>
        have hfailed : response.success = false := Bool.eq_false_iff.mpr hs
        simp [WipeReply.isFinal, WipeReply.response, hfailed]
      | error e => rfl
    by_cases hretryable : reply.response.retryable.getD true = true
    · simp only [hretryable, ↓reduceIte] at hlast
      rcases ih hlast with hrejects | ⟨outcome, rfl, hlooped⟩
      · exact .inl (hrejects.append [_, _])
      · exact .inr ⟨outcome, rfl, hlooped.retry ⟨rfl, rfl, rfl⟩ hharmless (by rw [hfinal, hretryable]; rfl)⟩
    · simp only [hretryable, Bool.false_eq_true, ↓reduceIte] at hlast
      obtain ⟨rfl, rfl⟩ := traces_pure_iff.mp hlast
      have hfailed : reply.response.success = false := Bool.eq_false_iff.mpr hs
      refine .inr ⟨_, rfl, looped_attempt ⟨rfl, rfl, rfl⟩ hharmless ?_ rfl hfailed.symm (by rw [if_neg hs])⟩
      rw [hfinal, Bool.eq_false_iff.mpr hretryable]
      rfl

end Loop

section Cleanup

variable {id userId tenantId : String} {task : JanitorTask} {tasks : List JanitorTask} {log : Transcript}
  {world : Behaviour Op fun op => Except Rejection op.Res} {keyStatus : Option KeyStatus}

lemma traces_publishToDeadLetters {destination error : String} {r : Except Rejection Unit}
    (h : Traces (JanitorService.publishToDeadLetters userId destination error).run log r) : Rejects r log ∨
    r = .ok () ∧ ∃ reply, log = [⟨.publishFailedWipe userId destination error, reply⟩] ∧
      isHarmful ⟨.publishFailedWipe userId destination error, reply⟩ = false := by
  rcases traces_tryCatch_iff.mp h with ⟨u, hx, rfl⟩ | ⟨e, first, rest, hx, hf, rfl⟩
  · exact .inr ⟨rfl, .ok u, traces_perform_iff.mp hx, rfl⟩
  · obtain rfl := traces_perform_iff.mp hx
    obtain ⟨text, isNullish⟩ := e
    cases isNullish with
    | false =>
      rcases traces_call_bind_iff.mp hf with ⟨message, second, last, hread, hpure, rfl⟩ | ⟨e, he, -⟩
      · obtain ⟨rfl, -⟩ := traces_orThrow_iff.mp hread
        obtain ⟨rfl, rfl⟩ := traces_pure_iff.mp hpure
        exact .inr ⟨rfl, .error ⟨text, false⟩, rfl, rfl⟩
      · cases (traces_orThrow_iff.mp he).2
    | true =>
      rcases traces_call_bind_iff.mp hf with ⟨message, second, last, hread, -, -⟩ | ⟨e, -, rfl⟩
      · cases (traces_orThrow_iff.mp hread).2
      · exact .inl ⟨⟨e, rfl⟩, _, List.mem_append_left rest (List.mem_singleton_self _), rfl⟩

lemma Looped.taskRun {outcome : JanitorService.WipeOutcome} {event : LineageEvent} {completed : Except Rejection Unit}
    {letters : Transcript} {result : JanitorTask}
    (h : Looped id userId tenantId task.destination JanitorService.maxRetries 0 outcome log)
    (hevent : event.userId = userId ∧ event.tenantId = tenantId ∧ event.destination = task.destination)
    (hletters : ∀ e ∈ letters, IsAbout id userId tenantId task.destination e.op) (hnone : attempts letters = [])
    (hdead : deadLetters letters = if outcome.success then [] else [(userId, task.destination)])
    (hresult : result = { task with
      status := if outcome.success then .complete else .failed
      attempts := outcome.attempts
      recordsFound := outcome.recordsFound }) :
    TaskRun id userId tenantId task result (log ++ ⟨.recordEvent event, completed⟩ :: letters) := by
  have hattempts : attempts (log ++ ⟨.recordEvent event, completed⟩ :: letters) = attempts log := by
    have hsplit : attempts (log ++ ⟨.recordEvent event, completed⟩ :: letters) = attempts log ++ attempts letters :=
      List.filterMap_append
    rw [hsplit, hnone, List.append_nil]
  have hdeadLetters : deadLetters (log ++ ⟨.recordEvent event, completed⟩ :: letters) = deadLetters letters := by
    have hsplit : deadLetters (log ++ ⟨.recordEvent event, completed⟩ :: letters) =
        deadLetters log ++ deadLetters letters := List.filterMap_append
    rw [hsplit, h.silent, List.nil_append]
  have hstatus : result.status = if outcome.success then .complete else .failed := by rw [hresult]
  refine ⟨fun e hm => ?_, by rw [hresult], ?_, ?_, ?_, ?_, ?_, ?_⟩
  · rcases List.mem_append.mp hm with hm | hm
    · exact h.concerns e hm
    rcases List.mem_cons.mp hm with rfl | hm
    · exact hevent
    · exact hletters e hm
  · rw [hattempts]
    intro hnil
    rcases h.tried.persists with hfinal | hlength
    · rw [hnil] at hfinal
      cases hfinal
    · rw [hnil] at hlength
      cases hlength
  · rw [hattempts]
    exact h.tried
  · rw [hattempts, hresult]
    exact h.counted.trans (Nat.zero_add _)
  · rw [hattempts, hstatus, h.success]
  · rw [hattempts, hresult]
    exact h.found
  · rw [hdeadLetters, hdead, hstatus]
    cases outcome.success <;> rfl

/-- A task that ends has had only rejections that can be reported. -/
def Calm (id userId tenantId : String) (task result : JanitorTask) (log : Transcript) : Prop :=
  TaskRun id userId tenantId task result log ∧ ∀ e ∈ log, isHarmful e = false

lemma Looped.calm {outcome : JanitorService.WipeOutcome} {event : LineageEvent} {completed : Except Rejection Unit}
    {letters : Transcript} {result : JanitorTask}
    (h : Looped id userId tenantId task.destination JanitorService.maxRetries 0 outcome log)
    (hletters : ∀ e ∈ letters, isHarmful e = false)
    (hrun : TaskRun id userId tenantId task result (log ++ ⟨.recordEvent event, completed⟩ :: letters)) :
    Calm id userId tenantId task result (log ++ ⟨.recordEvent event, completed⟩ :: letters) := by
  refine ⟨hrun, fun e hm => ?_⟩
  rcases List.mem_append.mp hm with hm | hm
  · exact h.harmless e hm
  rcases List.mem_cons.mp hm with rfl | hm
  · rfl
  · exact hletters e hm

lemma traces_cleanup (hconnector : hasConnector task.destination = true) {r : Except Rejection JanitorTask}
    (h : Traces (JanitorService.cleanup id userId tenantId task).run log r) :
    (∃ result, r = .ok result ∧ Calm id userId tenantId task result log) ∨ Rejects r log := by
  rw [JanitorService.cleanup] at h
  rw [if_pos hconnector] at h
  rcases traces_call_bind_iff.mp h with ⟨outcome, first, rest, hloop, hrest, rfl⟩ | ⟨e, he, rfl⟩
  swap
  · rcases traces_wipeAttempts he with hrejects | ⟨outcome, houtcome, -⟩
    · exact .inr (hrejects.of_error e)
    · cases houtcome
  rcases traces_wipeAttempts hloop with hrejects | ⟨outcome', houtcome, hlooped⟩
  · exact absurd hrejects not_rejects_ok
  obtain rfl := Except.ok.inj houtcome
  rcases traces_call_bind_iff.mp hrest with ⟨_, second, last, hevent, hlast, rfl⟩ | ⟨e, he, -⟩
  swap
  · cases (traces_recordEvent he).1
  obtain ⟨-, completed, rfl⟩ := traces_recordEvent hevent
  by_cases hs : outcome.success = true
  · rw [if_pos hs] at hlast
    obtain ⟨rfl, rfl⟩ := traces_pure_iff.mp hlast
    refine .inl ⟨_, rfl, hlooped.calm (fun e hm => absurd hm List.not_mem_nil) ?_⟩
    exact hlooped.taskRun ⟨rfl, rfl, rfl⟩ (fun e hm => absurd hm List.not_mem_nil) rfl (by rw [if_pos hs]; rfl)
      (by rw [if_pos hs])
  · rw [if_neg hs] at hlast
    rcases traces_call_bind_iff.mp hlast with ⟨_, third, nothing, hletter, hpure, rfl⟩ | ⟨e, he, rfl⟩
    swap
    · rcases traces_publishToDeadLetters he with hrejects | ⟨hpublished, -⟩
      · exact .inr (((hrejects.of_error e).append [_]).append first)
      · cases hpublished
    rcases traces_publishToDeadLetters hletter with hrejects | ⟨-, published, rfl, hharmless⟩
    · exact absurd hrejects not_rejects_ok
    obtain ⟨rfl, rfl⟩ := traces_pure_iff.mp hpure
    refine .inl ⟨_, rfl, hlooped.calm (fun e hm => ?_) ?_⟩
    · obtain rfl := List.mem_singleton.mp hm
      exact hharmless
    · refine hlooped.taskRun ⟨rfl, rfl, rfl⟩ (fun e hm => ?_) rfl (by rw [if_neg hs]; rfl) (by rw [if_neg hs])
      obtain rfl := List.mem_singleton.mp hm
      exact ⟨rfl, rfl⟩

lemma hasConnector_of_planned {destinations : List String} (h : task ∈ cleanupTasks destinations) :
    hasConnector task.destination = true := by
  obtain ⟨destination, hm, rfl⟩ := List.mem_map.mp h
  exact (List.mem_filter.mp hm).2

def planned (keyStatus : Option KeyStatus) : List JanitorTask :=
  cleanupTasks ((keyStatus.bind (·.destinations)).getD [])

lemma traces_processCleanup {r : Except Rejection (List JanitorTask)}
    (h : Traces (JanitorService.processCleanup id userId tenantId).run log r) :
    (∃ keyStatus rest results, log = ⟨.getKeyStatus userId tenantId, .ok keyStatus⟩ :: rest ∧ r = .ok results ∧
      Segmented (Calm id userId tenantId) (planned keyStatus) results rest) ∨
    (∃ e, log = [⟨.getKeyStatus userId tenantId, .error e⟩]) ∨ Rejects r log := by
  rw [JanitorService.processCleanup] at h
  rcases traces_call_bind_iff.mp h with ⟨tasks, first, rest, hplan, hrest, rfl⟩ | ⟨e, he, -⟩
  · rcases traces_call_bind_iff.mp hplan with ⟨keyStatus, read, nothing, hread, hpure, rfl⟩ | ⟨e, -, he⟩
    · obtain rfl := traces_perform_iff.mp hread
      obtain ⟨rfl, htasks⟩ := traces_pure_iff.mp hpure
      obtain rfl : tasks = planned keyStatus := Except.ok.inj htasks
      have hcleanup : ∀ task ∈ planned keyStatus, ∀ log r,
          Traces (JanitorService.cleanup id userId tenantId task).run log r →
            (∃ result, r = .ok result ∧ Calm id userId tenantId task result log) ∨ Rejects r log :=
        fun task hm log r => traces_cleanup (hasConnector_of_planned hm)
      rcases segmented_of_each hcleanup hrest with ⟨results, rfl, hsegments⟩ | ⟨⟨e, rfl⟩, hharmful⟩
      · exact .inl ⟨keyStatus, rest, results, rfl, rfl, hsegments⟩
      · exact .inr (.inr (Rejects.append ⟨⟨e, rfl⟩, hharmful⟩ _))
    · cases he
  · rcases traces_call_bind_iff.mp he with ⟨keyStatus, read, nothing, hread, hpure, rfl⟩ | ⟨e, he, -⟩
    · cases (traces_pure_iff.mp hpure).2
    · exact .inr (.inl ⟨e, traces_perform_iff.mp he⟩)

end Cleanup

section Main

variable {id userId tenantId : String} {world : Behaviour Op fun op => Except Rejection op.Res}
  {keyStatus : Option KeyStatus}

/-- The cleanup comes to an end, and in each of its runs every planned task has one result and its own part
of what was asked. -/
structure Executes (id userId tenantId : String) (world : Behaviour Op fun op => Except Rejection op.Res)
    (tasks : List JanitorTask) : Prop where
  ends : ∃ log r, Traces (JanitorService.processCleanup id userId tenantId).run log r ∧ AnsweredBy world [] log
  resolves (log : Transcript) (r : Except Rejection (List JanitorTask)) :
    Traces (JanitorService.processCleanup id userId tenantId).run log r → AnsweredBy world [] log →
      ∃ results read rest, r = .ok results ∧ log = read :: rest ∧ read.op = .getKeyStatus userId tenantId ∧
        Segmented (TaskRun id userId tenantId) tasks results rest

/-- Whatever the run is told, no rejection of a connector is one that cannot be made a string, and
none of the dead-letter sink is undefined or null. -/
def Reportable (id userId tenantId : String) (world : Behaviour Op fun op => Except Rejection op.Res) : Prop :=
  ∀ log r, Traces (JanitorService.processCleanup id userId tenantId).run log r → AnsweredBy world [] log →
    ∀ e ∈ log, isHarmful e = false

theorem cleanup_executes_iff (hplan : world [] (.getKeyStatus userId tenantId) = .ok keyStatus) :
    Executes id userId tenantId world (planned keyStatus) ↔ Reportable id userId tenantId world := by
  have hread {reply : Except Rejection (Option KeyStatus)} {rest : Transcript}
      (hworld : AnsweredBy world [] (⟨.getKeyStatus userId tenantId, reply⟩ :: rest)) : reply = .ok keyStatus :=
    hworld.1.trans hplan
  constructor
  · intro h log r ht hworld
    obtain ⟨results, -, -, rfl, -⟩ := h.resolves log r ht hworld
    rcases traces_processCleanup ht with ⟨_, rest, _, rfl, -, hsegments⟩ | ⟨e, rfl⟩ | hrejects
    · intro e hm
      rcases List.mem_cons.mp hm with rfl | hm
      · rfl
      · exact hsegments.forall_mem (fun _ _ _ hcalm => hcalm.2) e hm
    · cases hread hworld
    · exact absurd hrejects not_rejects_ok
  · intro h
    refine ⟨exists_trace world _ [], fun log r ht hworld => ?_⟩
    rcases traces_processCleanup ht with ⟨keyStatus', rest, results, rfl, rfl, hsegments⟩ | ⟨e, rfl⟩ | hrejects
    · obtain rfl := Except.ok.inj (hread hworld)
      exact ⟨results, _, rest, rfl, rfl, rfl, hsegments.mono fun _ _ _ hcalm => hcalm.1⟩
    · cases hread hworld
    · obtain ⟨-, x, hx, hharmful⟩ := hrejects
      rw [h log r ht hworld x hx] at hharmful
      contradiction

def exampleKey : KeyStatus := ⟨.shredded, 0, none, none, none, some ["hubspot", "warehouse", "salesforce"]⟩

/-- One connector answers at the second attempt, the other one refuses for good, and no sink takes anything. -/
def troubled : Behaviour Op fun op => Except Rejection op.Res := fun before op =>
  match op with
  | .getKeyStatus _ _ => .ok (some exampleKey)
  | .wipe _ destination _ _ =>
    if destination = "salesforce" then
      .ok { success := false, retryable := some false, error := some "Authentication failed" }
    else if attempts before = [] then .error { text := some "ECONNRESET" }
    else .ok { success := true, recordsFound := some 2 }
  | _ => .error { text := some "UNAVAILABLE" }

lemma troubled_harmless (before : Transcript) (op : Op) : isHarmful ⟨op, troubled before op⟩ = false := by
  cases op with
  | wipe id destination userId tenantId =>
    simp only [troubled]
    split_ifs <;> rfl
  | _ => rfl

theorem cleanup_executes_troubled : ∃ tasks, tasks.map JanitorTask.destination = ["hubspot", "salesforce"] ∧
    Executes "request" "ada" "acme" troubled tasks := by
  refine ⟨planned (some exampleKey), by decide +kernel, (cleanup_executes_iff rfl).mpr fun log r _ hworld e hm => ?_⟩
  obtain ⟨before, hreply⟩ := hworld.of_mem hm
  have he : e = ⟨e.op, troubled before e.op⟩ := by rw [← hreply]
  rw [he]
  exact troubled_harmless before e.op

/-- A connector refuses, and the dead-letter sink rejects with undefined. -/
def silenced : Behaviour Op fun op => Except Rejection op.Res := fun _ op =>
  match op with
  | .getKeyStatus _ _ => .ok (some exampleKey)
  | .wipe _ _ _ _ => .ok { success := false, retryable := some false, error := some "Authentication failed" }
  | .publishFailedWipe _ _ _ => .error { text := some "undefined", isNullish := true }
  | _ => .error { text := some "UNAVAILABLE" }

theorem cleanup_rejects :
    (follow silenced (JanitorService.processCleanup "request" "ada" "acme").run []).2.toOption.isNone = true ∧
      (planned (some exampleKey)).map JanitorTask.destination = ["hubspot", "salesforce"] ∧
      ¬ Executes "request" "ada" "acme" silenced (planned (some exampleKey)) := by
  have hrun : (follow silenced (JanitorService.processCleanup "request" "ada" "acme").run []).2.toOption.isNone = true := by
    decide +kernel
  refine ⟨hrun, by decide +kernel, fun h => ?_⟩
  obtain ⟨ht, hworld⟩ := traces_follow silenced (JanitorService.processCleanup "request" "ada" "acme").run []
  obtain ⟨results, -, -, hr, -⟩ := h.resolves _ _ ht hworld
  rw [hr] at hrun
  cases hrun

end Main

end ChameleonVault.Deletion
