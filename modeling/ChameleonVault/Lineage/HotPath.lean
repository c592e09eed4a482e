import ChameleonVault.Concurrency.Invariants
import ChameleonVault.Concurrency.Since
import ChameleonVault.Lineage.Events

/-! Which of the recorded destinations a cleanup plan knows of: those that are in the key
document when the plan reads it. -/

namespace ChameleonVault.Lineage

open Concurrency Interleaving Discipline KeyRegistry
open Deletion (JanitorTask cleanupTasks hasConnector)

variable {owner : Owner} {s s' : DocState} {doc : Option KeyMetadata} {destination : String}

section Documents

def destinations (doc : Option KeyMetadata) : List String := (doc.bind (·.destinations)).getD []

lemma destinations_getKeyStatus (now : Date) :
    ((getKeyStatus now doc).bind (·.destinations)).getD [] = destinations doc := by
  cases doc <;> rfl

lemma mem_arrayUnion {xs : List String} {x : String} :
    destination ∈ arrayUnion xs x ↔ destination ∈ xs ∨ destination = x := by
  rw [arrayUnion]
  split
  · constructor
    · exact .inl
    · rintro (h | rfl) <;> assumption
  · simp

def overwrites : KeyWrite → Bool
  | .set _ _ => true
  | _ => false

lemma mem_destinations_apply {w : KeyWrite} {now : Date} {data : KeyMetadata} (h : w.apply now doc = .ok data)
    (hw : overwrites w = false) (hd : destination ∈ destinations doc) : destination ∈ destinations (some data) := by
  cases w with
  | set userId dek => cases hw
  | rotate deks activeDekId =>
    cases doc with
    | none => cases h
    | some old =>
      obtain rfl := Except.ok.inj h
      exact hd
  | shred request =>
    obtain rfl := Except.ok.inj h
    cases doc with
    | none => cases hd
    | some old => exact hd
  | addDestination added =>
    cases doc with
    | none => cases h
    | some old =>
      obtain rfl := Except.ok.inj h
      exact mem_arrayUnion.mpr (.inl hd)

lemma added_mem_destinations {now : Date} {data : KeyMetadata}
    (h : (KeyWrite.addDestination destination).apply now doc = .ok data) :
    destination ∈ destinations (some data) := by
  cases doc with
  | none => cases h
  | some old =>
    obtain rfl := Except.ok.inj h
    exact mem_arrayUnion.mpr (.inr rfl)

lemma exec_write_cases {w : KeyWrite} {choice : Outcome} {r : Except String Unit}
    (h : (KeyOp.write w).exec choice s = some (r, s')) :
    choice ≠ .fail false ∧ (∃ data, w.apply s.clock s.doc = .ok data ∧ s'.doc = some data) ∨
      s'.doc = s.doc ∧ (choice = .fail false ∨ ∃ e, w.apply s.clock s.doc = .error e) := by
  cases choice with
  | done =>
    simp only [KeyOp.exec] at h
    split at h <;> obtain ⟨-, rfl⟩ := Prod.mk.inj (Option.some.inj h)
    · exact .inl ⟨fun h => (by cases h), _, by assumption, rfl⟩
    · exact .inr ⟨rfl, .inr ⟨_, by assumption⟩⟩
  | dek bytes => cases h
  | fail reached =>
    cases reached with
    | false =>
      obtain ⟨-, rfl⟩ := Prod.mk.inj (Option.some.inj h)
      exact .inr ⟨rfl, .inl rfl⟩
    | true =>
      simp only [KeyOp.exec] at h
      split at h
      · obtain ⟨-, rfl⟩ := Prod.mk.inj (Option.some.inj h)
        exact .inl ⟨fun h => (by cases h), _, by assumption, rfl⟩
      · cases h

end Documents

section Runs

def attempted : (hotPath owner).Log → List String
  | [] => []
  | .act ⟨_, .key (.write (.addDestination destination)), _, _⟩ :: log => destination :: attempted log
  | _ :: log => attempted log

/-- The destinations of the events that were answered as recorded. -/
def recorded : (hotPath owner).Log → List String
  | [] => []
  | .act ⟨_, .recorded event, _, _⟩ :: log =>
    if event.isResourceLevelGhostFinding then recorded log else event.destination :: recorded log
  | _ :: log => recorded log

def readsBy (t : ℕ) : (hotPath owner).Entry → Bool
  | .act ⟨t', .key .get, _, .ok _⟩ => t' = t
  | _ => false

/-- An update for a destination with a connector reaches a document, and no document that holds
such a destination is overwritten. -/
def keepsDestinations : (hotPath owner).Guard := fun s _ e =>
  match e with
  | .act ⟨_, .key (.write (.addDestination destination)), choice, _⟩ =>
    hasConnector destination = true → destination ∈ destinations s.doc ∨ s.doc.isSome = true ∧ choice ≠ .fail false
  | .act ⟨_, .key (.write (.set _ _)), choice, _⟩ =>
    choice ≠ .fail false → ∀ destination ∈ destinations s.doc, hasConnector destination = false
  | _ => True

instance : ∀ s log e, Decidable (@keepsDestinations owner s log e) := fun _ _ e =>
  match e with
  | .act ⟨_, .key (.write (.addDestination _)), _, _⟩ => inferInstanceAs (Decidable (_ → _ ∨ _))
  | .act ⟨_, .key (.write (.set _ _)), _, _⟩ => inferInstanceAs (Decidable (_ → ∀ _ ∈ _, _))
  | .act ⟨_, .key (.write (.rotate _ _)), _, _⟩ => isTrue trivial
  | .act ⟨_, .key (.write (.shred _)), _, _⟩ => isTrue trivial
  | .act ⟨_, .key .get, _, _⟩ => isTrue trivial
  | .act ⟨_, .key .ensureTenantKey, _, _⟩ => isTrue trivial
  | .act ⟨_, .key .generateAndEncryptDek, _, _⟩ => isTrue trivial
  | .act ⟨_, .recordEvent _ _, _, _⟩ => isTrue trivial
  | .act ⟨_, .recorded _, _, _⟩ => isTrue trivial
  | .act ⟨_, .planned _, _, _⟩ => isTrue trivial
  | .env _ => isTrue trivial

end Runs

section Knowledge

structure Progress where
  attempted : List String
  read : Option (Option KeyMetadata)

def progress : Discipline LineageOp (fun op => Except String op.Res) Progress where
  start := ⟨[], none⟩
  allowed q
    | .recorded event => event.isResourceLevelGhostFinding = true ∨ event.destination ∈ q.attempted
    | .planned tasks => ∃ doc, q.read = some doc ∧ tasks = cleanupTasks (destinations doc)
    | _ => True
  next q
    | .key (.write (.addDestination destination)), _ => { q with attempted := destination :: q.attempted }
    | .key .get, .ok doc => { q with read := some doc }
    | _, _ => q
  possible _ _ := True

variable {q : Progress} {event : LineageEvent} {now : Date}

lemma addDestinationToUser_keeps : progress.Keeps q (ofKey (FirestoreRegistry.addDestinationToUser destination))
    (fun _ q' => q' = { q with attempted := destination :: q.attempted }) (fun _ _ => True) := by
  refine ⟨trivial, ?_⟩
  rintro (e | a) _
  · rfl
  · rfl

lemma createCleanupPlan_keeps : progress.Keeps q (ofKey (createCleanupPlan now))
    (fun tasks q' => ∃ doc, q'.read = some doc ∧ tasks = cleanupTasks (destinations doc)) (fun _ _ => True) := by
  refine ⟨trivial, ?_⟩
  rintro (e | doc) _
  · trivial
  · exact ⟨doc, rfl, congrArg cleanupTasks (destinations_getKeyStatus now)⟩

lemma recordEvent_keeps {tenantId : String}
    (h : event.isResourceLevelGhostFinding = true ∨ event.destination ∈ q.attempted) :
    progress.Keeps q (do
      let _ ← perform (LineageOp.recordEvent tenantId event)
      perform (LineageOp.recorded event)) (fun _ _ => True) (fun _ _ => True) := by
  apply Keeps.bind
  refine Keeps.perform trivial (fun _ _ => ?_) (fun _ _ => trivial)
  exact Keeps.perform h (fun _ _ => trivial) (fun _ _ => trivial)

lemma postLineageEvents_keeps (tenantId : String) :
    progress.Keeps q (postLineageEvents tenantId event) (fun _ _ => True) (fun _ _ => True) := by
  rw [postLineageEvents]
  by_cases h : event.isResourceLevelGhostFinding = true
  · simp only [h]
    exact recordEvent_keeps (.inl h)
  · simp only [h]
    apply Keeps.bind
    refine Keeps.mono addDestinationToUser_keeps ?_ (fun _ _ => id)
    rintro _ _ rfl
    exact recordEvent_keeps (.inr List.mem_cons_self)

lemma reportCleanupPlan_keeps : progress.Keeps q (reportCleanupPlan now) (fun _ _ => True) (fun _ _ => True) := by
  apply Keeps.bind
  refine Keeps.mono createCleanupPlan_keeps ?_ (fun _ _ => id)
  exact fun tasks q' h => Keeps.perform h (fun _ _ => trivial) (fun _ _ => trivial)

lemma progress_governs : Governs (S := hotPath owner) progress (fun _ => True) := by
  refine ⟨fun j => ?_, fun _ _ => ⟨trivial, trivial⟩, fun _ _ => trivial⟩
  cases j with
  | lineageEvent header event =>
    exact Follows.bind (Follows.mono (postLineageEvents_keeps owner.tenantId) fun _ _ _ => trivial)
  | key job =>
    refine Follows.of_always (Prog.Uses.rename ?_)
    exact (Prog.Uses.any _).mono fun _ _ _ => trivial
  | createCleanupPlan now => exact Follows.bind (Follows.mono reportCleanupPlan_keeps fun _ _ _ => trivial)

end Knowledge

section Steps

variable {log : (hotPath owner).Log} {a : (hotPath owner).Action} {t : ℕ}

lemma doc_of_exec {op : LineageOp} {choice : Outcome} {r : Except String op.Res}
    (h : op.exec choice s = some (r, s')) (hw : ∀ w, op ≠ .key (.write w)) : s'.doc = s.doc := by
  cases op with
  | key op =>
    cases op with
    | write w => exact absurd rfl (hw w)
    | _ => cases choice <;> cases h <;> rfl
  | _ => cases choice <;> cases h <;> rfl

lemma kept (hd : destination ∈ destinations s.doc) (hc : hasConnector destination = true)
    (he : a.op.exec a.choice s = some (a.reply, s')) (hg : keepsDestinations s log (.act a)) :
    destination ∈ destinations s'.doc := by
  obtain ⟨t, op, choice, reply⟩ := a
  by_cases hw : ∃ w, op = .key (.write w)
  · obtain ⟨w, rfl⟩ := hw
    rcases exec_write_cases he with ⟨hchoice, data, happly, hs⟩ | ⟨hs, -⟩
    · rw [hs]
      cases hover : overwrites w with
      | false => exact mem_destinations_apply happly hover hd
      | true =>
        cases w with
        | set userId dek =>
          have hnone : hasConnector destination = false := hg hchoice destination hd
          rw [hnone] at hc
          contradiction
        | _ => cases hover
    · rwa [hs]
  · rwa [doc_of_exec he fun w hop => hw ⟨w, hop⟩]

lemma added (hop : a.op = .key (.write (.addDestination destination))) (hc : hasConnector destination = true)
    (he : a.op.exec a.choice s = some (a.reply, s')) (hg : keepsDestinations s log (.act a)) :
    destination ∈ destinations s'.doc := by
  have hkept : destination ∈ destinations s.doc → destination ∈ destinations s'.doc := fun hd => kept hd hc he hg
  obtain ⟨t, op, choice, reply⟩ := a
  obtain rfl : op = .key (.write (.addDestination destination)) := hop
  rcases hg hc with hd | ⟨hdoc, hchoice⟩
  · exact hkept hd
  · rcases exec_write_cases he with ⟨-, data, happly, hs⟩ | ⟨-, hfail | ⟨e, happly⟩⟩
    · rw [hs]
      exact added_mem_destinations happly
    · exact absurd hfail hchoice
    · obtain ⟨old, hold⟩ := Option.isSome_iff_exists.mp hdoc
      rw [hold] at happly
      cases happly

lemma attempted_act : destination ∈ attempted (.act a :: log) ↔
    a.op = .key (.write (.addDestination destination)) ∨ destination ∈ attempted log := by
  obtain ⟨t, op, choice, reply⟩ := a
  cases op with
  | key op =>
    cases op with
    | write w =>
      cases w with
      | addDestination added =>
        simp only [attempted, List.mem_cons, LineageOp.key.injEq, KeyOp.write.injEq, KeyWrite.addDestination.injEq]
        rw [eq_comm]
      | _ => simp [attempted]
    | _ => simp [attempted]
  | _ => simp [attempted]

lemma recorded_act : destination ∈ recorded (.act a :: log) ↔ destination ∈ recorded log ∨
    ∃ event, a.op = .recorded event ∧ event.isResourceLevelGhostFinding = false ∧ event.destination = destination := by
  obtain ⟨t, op, choice, reply⟩ := a
  cases op with
  | recorded event =>
    change destination ∈ (if event.isResourceLevelGhostFinding then recorded log else event.destination :: recorded log) ↔ _
    cases hghost : event.isResourceLevelGhostFinding with
    | true => simp [hghost]
    | false =>
      simp only [hghost, Bool.false_eq_true, if_false, List.mem_cons, LineageOp.recorded.injEq, exists_eq_left', true_and]
      rw [eq_comm, or_comm]
  | key op => simp [recorded]
  | recordEvent tenantId event => simp [recorded]
  | planned tasks => simp [recorded]

lemma known_attempted (h : destination ∈ (progress.known t log).attempted) : destination ∈ attempted log := by
  induction log with
  | nil => cases h
  | cons e log ih =>
    cases e with
    | env n => exact ih h
    | act a =>
      rw [attempted_act]
      rcases known_act_cases a t log with hk | ⟨-, hk⟩
      · exact .inr (ih (hk ▸ h))
      · rw [hk] at h
        obtain ⟨t, op, choice, reply⟩ := a
        cases op with
        | key op =>
          cases op with
          | write w =>
            cases w with
            | addDestination added =>
              rcases List.mem_cons.mp h with rfl | h
              · exact .inl rfl
              · exact .inr (ih h)
            | _ => exact .inr (ih h)
          | get => cases reply <;> exact .inr (ih h)
          | _ => exact .inr (ih h)
        | _ => exact .inr (ih h)

lemma read_act (he : a.op.exec a.choice s = some (a.reply, s'))
    (h : (progress.known t (.act a :: log)).read = some doc) :
    doc = s.doc ∧ prior (readsBy t) (.act a :: log) = log ∨
      (progress.known t log).read = some doc ∧ prior (readsBy t) (.act a :: log) = prior (readsBy t) log := by
  by_cases ht : a.tid = t
  · subst ht
    rw [known_act_self] at h
    obtain ⟨t, op, choice, reply⟩ := a
    cases op with
    | key op =>
      cases op with
      | get =>
        cases reply with
        | error e => exact .inr ⟨h, rfl⟩
        | ok read =>
          have hread : read = s.doc := by
            cases choice <;> cases he
            rfl
          exact .inl ⟨(Option.some.inj h).symm.trans hread, prior_now (decide_eq_true rfl)⟩
      | write w => cases w <;> exact .inr ⟨h, rfl⟩
      | _ => exact .inr ⟨h, rfl⟩
    | _ => exact .inr ⟨h, rfl⟩
  · rw [known_act_ne ht] at h
    have hreads : readsBy t (.act a) = false := by
      obtain ⟨t', op, choice, reply⟩ := a
      cases op with
      | key op =>
        cases op with
        | get => cases reply with
          | error e => rfl
          | ok read => exact decide_eq_false ht
        | _ => rfl
      | _ => rfl
    exact .inr ⟨h, prior_other hreads⟩

end Steps

section Invariants

structure Held (s : DocState) (log : (hotPath owner).Log) : Prop where
  stored : ∀ destination ∈ attempted log, hasConnector destination = true → destination ∈ destinations s.doc
  attempted : ∀ destination ∈ recorded log, destination ∈ Lineage.attempted log
  read (t : ℕ) (doc : Option KeyMetadata) : (progress.known t log).read = some doc →
    ∀ destination ∈ recorded (prior (readsBy t) log), hasConnector destination = true → destination ∈ destinations doc

lemma Held.act {log : (hotPath owner).Log} {a : (hotPath owner).Action} (h : Held s log)
    (ha : Allowed progress (fun _ => True) keepsDestinations s log a s') : Held s' (.act a :: log) where
  stored destination hd hc := by
    rcases attempted_act.mp hd with hop | hd
    · exact added hop hc ha.exec ha.guard
    · exact kept (h.stored destination hd hc) hc ha.exec ha.guard
  attempted destination hd := by
    rw [attempted_act]
    rcases recorded_act.mp hd with hd | ⟨event, hop, hghost, rfl⟩
    · exact .inr (h.attempted destination hd)
    · have hallowed := ha.allowed
      rw [hop] at hallowed
      rcases hallowed with hghost' | hknown
      · rw [hghost] at hghost'
        contradiction
      · exact .inr (known_attempted hknown)
  read t doc hk destination hd hc := by
    rcases read_act ha.exec hk with ⟨rfl, hbefore⟩ | ⟨hk, hbefore⟩
    · rw [hbefore] at hd
      exact h.stored destination (h.attempted destination hd) hc
    · rw [hbefore] at hd
      exact h.read t doc hk destination hd hc

lemma held_inductive : Inductive (S := hotPath owner) progress (fun _ => True) keepsDestinations Held := by
  refine ⟨fun hi ha => hi.act ha, ?_⟩
  intro s s' log n hi _ he _
  obtain rfl := Option.some.inj he
  exact ⟨hi.stored, hi.attempted, hi.read⟩

lemma held_initial : Held s ([] : (hotPath owner).Log) :=
  ⟨fun _ h => (List.not_mem_nil h).elim, fun _ h => (List.not_mem_nil h).elim, fun _ _ h => nomatch h⟩

theorem recorded_destinations_planned {c d : (hotPath owner).Config} {a : (hotPath owner).Action}
    {tasks : List JanitorTask} (hr : Reachable keepsDestinations (initial s) c) (hp : Performs keepsDestinations c a d)
    (ha : a.op = .planned tasks) :
    ∀ destination ∈ recorded (prior (readsBy a.tid) c.log), hasConnector destination = true →
      { destination } ∈ tasks := by
  intro destination hd hc
  have hconforms : Conforms progress (fun _ => True) (initial s : (hotPath owner).Config) := conforms_initial trivial
  have hheld : Held c.state c.log := held_inductive.run progress_governs hconforms held_initial hr
  have hallowed := ((hconforms.reachable progress_governs hr).allowed_of_performs progress_governs hp).allowed
  rw [ha] at hallowed
  obtain ⟨doc, hk, rfl⟩ := hallowed
  exact List.mem_map_of_mem (List.mem_filter.mpr ⟨hheld.read a.tid doc hk destination hd hc, hc⟩)

end Invariants

section Examples

def LineageOp.tasks : LineageOp → Option (List JanitorTask)
  | .planned tasks => some tasks
  | _ => none

lemma eq_planned {op : LineageOp} {tasks : List JanitorTask} (h : op.tasks = some tasks) : op = .planned tasks := by
  cases op with
  | planned planned => exact congrArg LineageOp.planned (Option.some.inj h)
  | _ => cases h

def ada : Owner := ⟨"default-tenant", "ada"⟩

def unseen : (hotPath ada).Config := initial ⟨0, none⟩

abbrev HotPathEvent := (hotPath ada).Event

def toHubspot : LineageEvent := { userId := some "ada", source := "crm-sync", destination := "hubspot" }

def keyGenerated (t : ℕ) : List HotPathEvent :=
  [.start (.key .keyGenerate), .act t .done, .act t .done, .act t (.dek [1]), .act t .done]

def eventRecorded (t : ℕ) : List HotPathEvent :=
  [.start (.lineageEvent none toHubspot), .act t .done, .act t .done, .act t .done]

def planRead (t : ℕ) : List HotPathEvent := [.start (.createCleanupPlan 0), .act t .done]

theorem recorded_destinations_planned_hubspot :
    ∃ (c d : (hotPath ada).Config) (a : (hotPath ada).Action), Reachable keepsDestinations unseen c ∧
      Performs keepsDestinations c a d ∧ a.op = .planned [{ destination := "hubspot" }] ∧
      "hubspot" ∈ recorded (prior (readsBy a.tid) c.log) ∧
      ∀ destination ∈ recorded (prior (readsBy a.tid) c.log), hasConnector destination = true →
        { destination } ∈ [({ destination := "hubspot" } : JanitorTask)] := by
  have h : ∃ (c : (hotPath ada).Config) (a : (hotPath ada).Action) (d : (hotPath ada).Config),
      Reachable keepsDestinations unseen c ∧ Performs keepsDestinations c a d ∧
      a.op.tasks = some [{ destination := "hubspot" }] ∧ "hubspot" ∈ recorded (prior (readsBy a.tid) c.log) :=
    exists_performs (keyGenerated 0 ++ eventRecorded 1 ++ planRead 2) 2 Outcome.done _ (by decide +kernel)
  obtain ⟨c, a, d, hr, hp, ha, hd⟩ := h
  have hop := eq_planned ha
  exact ⟨c, d, a, hr, hp, hop, hd, recorded_destinations_planned hr hp hop⟩

/-- One event comes before the key is generated, the other before it is shredded and generated anew. -/
theorem recorded_destinations_lost :
    (∃ (c : (hotPath ada).Config) (a : (hotPath ada).Action) (d : (hotPath ada).Config),
      Reachable free unseen c ∧ Performs free c a d ∧ a.op.tasks = some [] ∧
      "hubspot" ∈ recorded (prior (readsBy a.tid) c.log) ∧ hasConnector "hubspot" = true ∧
      hasActiveKeyMaterial c.state.doc = true) ∧
    ∃ (c : (hotPath ada).Config) (a : (hotPath ada).Action) (d : (hotPath ada).Config),
      Reachable free unseen c ∧ Performs free c a d ∧ a.op.tasks = some [] ∧
      "hubspot" ∈ recorded (prior (readsBy a.tid) c.log) ∧ hasConnector "hubspot" = true :=
  ⟨exists_performs (eventRecorded 0 ++ keyGenerated 1 ++ planRead 2) 2 Outcome.done _ (by decide +kernel),
    exists_performs (keyGenerated 0 ++ eventRecorded 1 ++ [.start (.key (.shredKeyForUser none)), .act 2 .done]
      ++ keyGenerated 3 ++ planRead 4) 4 Outcome.done _ (by decide +kernel)⟩

end Examples

end ChameleonVault.Lineage
