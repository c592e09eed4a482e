import ChameleonVault.KeyRegistry.Snapshots

/-! What a committed shred guarantees about the key document, and the rotation that undoes it. -/

namespace ChameleonVault.KeyRegistry

open Concurrency Interleaving Discipline

variable {userId : String}

def shredded : (keyDocument userId).Log → Bool
  | [] => false
  | e :: log =>
    match commits e with
    | some (.shred _) => true
    | some (.set _ _) => false
    | _ => shredded log

def isShredded : Option KeyMetadata → Bool
  | some data => data.status == .shredded
  | none => false

def isRotation : Option KeyWrite → Bool
  | some (.rotate _ _) => true
  | _ => false

/-- No rotation lands on a shredded document. -/
def sparesShredded : (keyDocument userId).Guard := fun s _ e =>
  (isRotation (commits e) && isShredded s.doc) = false

instance : ∀ s log e, Decidable (@sparesShredded userId s log e) :=
  fun _ _ _ => inferInstanceAs (Decidable (_ = false))

def Empty (doc : Option KeyMetadata) : Prop :=
  ∃ data, doc = some data ∧ data.status = .shredded ∧ data.deks = ∅

lemma getKeyForUser_empty {doc : Option KeyMetadata} (h : Empty doc) (version : Option String) :
    getKeyForUser doc version = .ok none := by
  obtain ⟨data, rfl, hs, hd⟩ := h
  simp [getKeyForUser, hs]

lemma hasActiveKeyMaterial_empty {doc : Option KeyMetadata} (h : Empty doc) :
    hasActiveKeyMaterial doc = false := by
  obtain ⟨data, rfl, hs, hd⟩ := h
  simp [hasActiveKeyMaterial, hd]

lemma apply_shred_empty {now : Date} {request : Option String} {doc : Option KeyMetadata} {data : KeyMetadata}
    (h : (KeyWrite.shred request).apply now doc = .ok data) : Empty (some data) := by
  simp only [KeyWrite.apply, Except.ok.injEq] at h
  exact ⟨data, rfl, by rw [← h], by rw [← h]⟩

lemma apply_addDestination_empty {now : Date} {destination : String} {doc : Option KeyMetadata}
    {data : KeyMetadata} (hd : Empty doc) (h : (KeyWrite.addDestination destination).apply now doc = .ok data) :
    Empty (some data) := by
  obtain ⟨old, rfl, hs, hk⟩ := hd
  simp only [KeyWrite.apply, Except.ok.injEq] at h
  exact ⟨data, rfl, by rw [← h]; exact hs, by rw [← h]; exact hk⟩

lemma empty_step {s s' : DocState} {log : (keyDocument userId).Log} {a : Action (keyDocument userId)}
    (hi : shredded log = true → Empty s.doc) (he : KeyOp.exec a.op a.choice s = some (a.reply, s'))
    (hg : sparesShredded s log (.act a)) (hs : shredded (.act a :: log) = true) : Empty s'.doc := by
  have hc := exec_commits he
  simp only [shredded] at hs
  simp only [sparesShredded] at hg
  split at hc
  · rename_i w hw
    obtain ⟨data, hd, hs'⟩ := hc
    rw [hs']
    simp only [hw] at hs hg
    cases w with
    | set userId dek => simp at hs
    | rotate deks activeDekId =>
      obtain ⟨old, ho, hst, -⟩ := hi hs
      simp [isRotation, isShredded, ho, hst] at hg
    | shred request => exact apply_shred_empty hd
    | addDestination destination => exact apply_addDestination_empty (hi hs) hd
  · rename_i hw
    rw [hc]
    simp only [hw] at hs
    exact hi hs

lemma empty_inductive : Inductive snapshots (fun _ => True) (@sparesShredded userId)
    (fun s log => shredded log = true → Empty s.doc) := by
  refine ⟨fun hi ha => empty_step hi ha.exec ha.guard, ?_⟩
  intro s s' log n hi _ he _ hs
  obtain rfl := Option.some.inj he
  exact hi hs

theorem shred_is_irrevocable {s : DocState} {c : (keyDocument userId).Config}
    (hr : Reachable sparesShredded (initial s) c) (hs : shredded c.log = true) :
    (∀ version, getKeyForUser c.state.doc version = .ok none) ∧
      hasActiveKeyMaterial c.state.doc = false := by
  have hc : Conforms snapshots (fun _ => True) (initial s : (keyDocument userId).Config) :=
    conforms_initial trivial
  have he : Empty c.state.doc :=
    empty_inductive.run (snapshots_governs userId) hc (fun h => by simp [initial, shredded] at h) hr hs
  exact ⟨getKeyForUser_empty he, hasActiveKeyMaterial_empty he⟩

section Runs

abbrev KeyEvent := (keyDocument "ada").Event

def generated : List KeyEvent :=
  [.start .keyGenerate, .act 0 .done, .act 0 .done, .act 0 (.dek [1]), .act 0 .done]

def rotatedThenShredded : List KeyEvent :=
  [.start (.rotateKeyForUser [2]), .act 1 .done, .act 1 .done,
    .start (.shredKeyForUser (some "request")), .act 2 .done]

/-- The rotation reads the document, the shred commits, and only then the rotation writes. -/
def shreddedDuringRotation : List KeyEvent :=
  [.start (.rotateKeyForUser [2]), .act 1 .done,
    .start (.shredKeyForUser (some "request")), .act 2 .done, .act 1 .done]

theorem shred_is_irrevocable_rotated :
    ∃ c, Reachable sparesShredded (noDocument "ada" 0) c ∧ shredded c.log = true ∧
      (∀ version, getKeyForUser c.state.doc version = .ok none) ∧
      hasActiveKeyMaterial c.state.doc = false := by
  have h : ∃ c, Reachable sparesShredded (noDocument "ada" 0) c ∧ shredded c.log = true :=
    exists_reachable (generated ++ rotatedThenShredded) _ (by decide)
  obtain ⟨c, hr, hs⟩ := h
  exact ⟨c, hr, hs, shred_is_irrevocable hr hs⟩

theorem rotation_undoes_shred :
    ∃ c d, Reachable free (noDocument "ada" 0) c ∧ Reachable free c d ∧
      getKeyForUser c.state.doc (some "v1") = .ok (some ⟨[1], some "v1", "v2"⟩) ∧
      shredded c.log = false ∧ shredded d.log = true ∧
      getKeyForUser d.state.doc (some "v1") = .ok (some ⟨[1], some "v2", "v2"⟩) ∧
      hasActiveKeyMaterial d.state.doc = true :=
  exists_reachable_later generated shreddedDuringRotation _ (by decide)

end Runs

end ChameleonVault.KeyRegistry
