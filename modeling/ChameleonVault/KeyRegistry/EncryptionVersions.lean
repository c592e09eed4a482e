import ChameleonVault.KeyRegistry.Versions

/-! The encryption version of a stored key: every document that ever held one keeps the version it was set with. -/

namespace ChameleonVault.KeyRegistry

open Concurrency Interleaving Discipline

section Discipline

/-- Whether a caller has read a document with an active key. -/
def sightings : Discipline KeyOp (fun op => Except String op.Res) Bool where
  start := false
  allowed sighted
    | .write (.rotate _ _) => sighted = true
    | _ => True
  next sighted
    | .get, .ok (some data) => sighted || data.activeDekId.isSome
    | _, _ => sighted
  possible _ _ := True

lemma sightings_of_always {op : KeyOp} (h : Always op) (sighted : Bool) : sightings.allowed sighted op := by
  cases op with
  | write w =>
    cases w with
    | rotate deks activeDekId =>
      obtain ⟨data, -, hnone, -⟩ := h none
      cases hnone
    | _ => trivial
  | _ => trivial

lemma rotateKeyForUser_sights (newDek : Dek) (sighted : Bool) :
    sightings.Keeps sighted (FirestoreRegistry.rotateKeyForUser newDek) (fun _ _ => True) (fun _ _ => True) := by
  apply Keeps.bind
  refine Keeps.perform trivial (fun doc _ => ?_) (fun _ _ => trivial)
  cases doc with
  | none => exact Keeps.throw trivial
  | some data =>
    simp only
    split
    · exact Keeps.throw trivial
    · rename_i hactive
      have hsighted : (sighted || data.activeDekId.isSome) = true := by
        rw [Option.isSome_iff_ne_none.mpr fun hnone => hactive (.inr hnone), Bool.or_true]
      apply Keeps.bind
      refine Keeps.perform hsighted (fun _ _ => ?_) (fun _ _ => trivial)
      exact Keeps.pure trivial

lemma keyRotate_sights (sighted : Bool) :
    sightings.Keeps sighted keyRotate (fun _ _ => True) (fun _ _ => True) := by
  apply Keeps.bind
  refine Keeps.perform trivial (fun _ _ => ?_) (fun _ _ => trivial)
  apply Keeps.bind
  exact Keeps.perform trivial (fun newDek _ => rotateKeyForUser_sights newDek _) (fun _ _ => trivial)

lemma sightings_governs (userId : String) : Governs (S := keyDocument userId) sightings (fun _ => True) := by
  refine ⟨fun j => ?_, fun _ _ => ⟨trivial, trivial⟩, fun _ _ => trivial⟩
  cases hj : j.rotates with
  | false => exact .of_always ((uses_keyJob userId hj).mono fun _ => sightings_of_always)
  | true =>
    cases j with
    | rotateKeyForUser newDek =>
      exact Follows.bind (Follows.mono (rotateKeyForUser_sights newDek _) fun _ _ _ => trivial)
    | keyRotate => exact Follows.bind (Follows.mono (keyRotate_sights _) fun _ _ _ => trivial)
    | _ => cases hj

end Discipline

section Documents

variable {userId : String} {doc : Option KeyMetadata} {data old : KeyMetadata} {w : KeyWrite} {now : Date}
  {s s' : DocState} {op : KeyOp} {choice : Outcome} {r : Except String op.Res} {sighted : Bool}

def HasVersion (data : KeyMetadata) : Prop := data.encryptionVersion = some "v2"

/-- A document with an active key has the version, and so has one that any caller saw with an active key. -/
structure Versioned (s : DocState) (log : (keyDocument userId).Log) : Prop where
  active (data : KeyMetadata) : s.doc = some data → data.activeDekId.isSome = true → HasVersion data
  sighted (t : ℕ) : sightings.known t log = true → ∃ data, s.doc = some data ∧ HasVersion data

lemma next_sightings (h : op.exec choice s = some (r, s')) (hnext : sightings.next sighted op r = true) :
    sighted = true ∨ ∃ data, s.doc = some data ∧ data.activeDekId.isSome = true := by
  cases op with
  | get =>
    cases choice with
    | done =>
      obtain ⟨rfl, -⟩ := Prod.mk.inj (Option.some.inj h)
      cases hdoc : s.doc with
      | none =>
        rw [hdoc] at hnext
        exact .inl hnext
      | some data =>
        rw [hdoc] at hnext
        exact ((Bool.or_eq_true _ _).mp hnext).imp_right fun hactive => ⟨data, rfl, hactive⟩
    | dek bytes => cases h
    | fail committed =>
      obtain ⟨rfl, -⟩ := Prod.mk.inj (Option.some.inj h)
      exact .inl hnext
  | _ => exact .inl hnext

lemma hasVersion_kept (h : w.apply now (some old) = .ok data) (hold : HasVersion old) : HasVersion data := by
  cases w with
  | set userId dek =>
    obtain rfl := Except.ok.inj h
    rfl
  | rotate deks activeDekId | shred deletionRequestId | addDestination destination =>
    obtain rfl := Except.ok.inj h
    exact hold

lemma hasVersion_of_active (h : w.apply now doc = .ok data) (hactive : data.activeDekId.isSome = true)
    (hdoc : ∀ old, doc = some old → old.activeDekId.isSome = true → HasVersion old)
    (hrotate : ∀ deks activeDekId, w = .rotate deks activeDekId → ∃ old, doc = some old ∧ HasVersion old) :
    HasVersion data := by
  cases w with
  | set userId dek =>
    obtain rfl := Except.ok.inj h
    rfl
  | rotate deks activeDekId =>
    obtain ⟨old, rfl, hold⟩ := hrotate deks activeDekId rfl
    exact hasVersion_kept h hold
  | shred deletionRequestId =>
    obtain rfl := Except.ok.inj h
    cases hactive
  | addDestination destination =>
    cases doc with
    | none => cases h
    | some old =>
      obtain rfl := Except.ok.inj h
      exact hdoc old rfl hactive

lemma known_of_write {a : (keyDocument userId).Action} {log : (keyDocument userId).Log} (hop : a.op = .write w) (t : ℕ) :
    sightings.known t (.act a :: log) = sightings.known t log := by
  obtain ⟨tid, op, choice, r⟩ := a
  obtain rfl : op = .write w := hop
  rcases known_act_cases (D := sightings) (⟨tid, .write w, choice, r⟩ : (keyDocument userId).Action) t log with h | h
  · exact h
  · exact h.2

lemma versioned_inductive {guard : (keyDocument userId).Guard} :
    Inductive sightings (fun _ => True) guard Versioned := by
  refine ⟨fun {s s' log a} hi ha => ?_, ?_⟩
  · have hcommits := exec_commits ha.exec
    cases hw : commits (.act a) with
    | some w =>
      rw [hw] at hcommits
      obtain ⟨data, happly, hdoc⟩ := hcommits
      have hop := commits_write hw
      have hrotate : ∀ deks activeDekId, w = .rotate deks activeDekId → ∃ old, s.doc = some old ∧ HasVersion old := by
        rintro deks activeDekId rfl
        have hallowed := ha.allowed
        rw [hop] at hallowed
        exact hi.sighted a.tid hallowed
      refine ⟨fun data' hdata' hactive => ?_, fun t ht => ?_⟩
      · obtain rfl := Option.some.inj (hdoc.symm.trans hdata')
        exact hasVersion_of_active happly hactive hi.active hrotate
      · rw [known_of_write hop] at ht
        obtain ⟨old, hold, hversion⟩ := hi.sighted t ht
        rw [hold] at happly
        exact ⟨data, hdoc, hasVersion_kept happly hversion⟩
    | none =>
      rw [hw] at hcommits
      have hdoc : s'.doc = s.doc := hcommits
      refine ⟨fun data' => ?_, fun t ht => ?_⟩
      · rw [hdoc]
        exact hi.active data'
      · rw [hdoc]
        rcases known_act_cases (D := sightings) a t log with hknown | ⟨rfl, hknown⟩
        · exact hi.sighted t (hknown ▸ ht)
        · rcases next_sightings ha.exec (hknown ▸ ht) with hknown | ⟨data, hdata, hactive⟩
          · exact hi.sighted a.tid hknown
          · exact ⟨data, hdata, hi.active data hdata hactive⟩
  · intro s s' log n hi _ he _
    obtain rfl := Option.some.inj he
    exact ⟨hi.active, hi.sighted⟩

lemma versioned_start (now : Date) : Versioned ⟨now, none⟩ ([] : (keyDocument userId).Log) := by
  refine ⟨fun data hdata _ => ?_, fun t ht => ?_⟩
  · cases hdata
  · cases ht

/-- What generations, rotations and shreds, in any interleaving, leave of the user's document. -/
def Stored (userId : String) (doc : Option KeyMetadata) : Prop :=
  ∃ now c, Reachable free (noDocument userId now) c ∧ c.state.doc = doc

lemma hasVersion_of_stored (h : Stored userId (some data)) (hactive : data.activeDekId.isSome = true) :
    HasVersion data := by
  obtain ⟨now, c, hc, hdoc⟩ := h
  have hi : Versioned c.state c.log :=
    versioned_inductive.run (sightings_governs userId) (conforms_initial trivial) (versioned_start now) hc
  exact hi.active data hdoc hactive

end Documents

end ChameleonVault.KeyRegistry
