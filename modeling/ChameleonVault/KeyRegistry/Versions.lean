import ChameleonVault.KeyRegistry.Snapshots

/-! Version ids are handed out in order. As long as no write is built from fewer keys than the
document holds, an id once visible keeps its key. -/

namespace ChameleonVault.KeyRegistry

open Concurrency Interleaving Discipline

lemma versionId_injective {m n : ℕ} (h : versionId m = versionId n) : m = n := by
  have hr : Nat.repr m = Nat.repr n := (String.append_right_inj "v").mp h
  have hd := congrArg (fun s : String => Nat.ofDigitChars 10 s.toList 0) hr
  simpa using hd

def versionIds : ℕ → List String
  | 0 => []
  | n + 1 => versionId (n + 1) :: versionIds n

lemma length_versionIds (n : ℕ) : (versionIds n).length = n := by
  induction n with
  | zero => rfl
  | succ n ih => simp [versionIds, ih]

lemma le_of_mem_versionIds {m n : ℕ} (h : versionId m ∈ versionIds n) : m ≤ n := by
  induction n with
  | zero => simp [versionIds] at h
  | succ n ih =>
    rcases List.mem_cons.mp h with h | h
    · have he := versionId_injective h
      omega
    · have hm := ih h
      omega

def Numbered (deks : Deks) : Prop := deks.keys = versionIds deks.keys.length

lemma numbered_empty : Numbered ∅ := rfl

lemma Numbered.fresh {deks : Deks} (h : Numbered deks) : versionId (deks.keys.length + 1) ∉ deks := by
  intro hm
  rw [AList.mem_keys, h, length_versionIds] at hm
  have hl := le_of_mem_versionIds hm
  omega

lemma keys_insert_fresh {deks : Deks} {v : String} (h : v ∉ deks) (dek : Dek) :
    (deks.insert v dek).keys = v :: deks.keys := by
  rw [AList.keys_insert, List.erase_of_not_mem (by rwa [← AList.mem_keys])]

lemma Numbered.insert {deks : Deks} (h : Numbered deks) (dek : Dek) :
    Numbered (deks.insert (versionId (deks.keys.length + 1)) dek) := by
  have hk := keys_insert_fresh h.fresh dek
  rw [Numbered, hk, List.length_cons, versionIds]
  exact congrArg _ h

lemma numbered_initialVersion (dek : Dek) : Numbered (initialVersion dek) :=
  numbered_empty.insert dek

def visible (doc : Option KeyMetadata) : Deks :=
  match doc with
  | some data => data.deks
  | none => ∅

variable {userId : String}

def OrderedVersions (s : DocState) (log : (keyDocument userId).Log) : Prop :=
  Numbered (visible s.doc) ∧ ∀ t, Numbered (visible (snapshots.known t log))

def KeyWrite.leaves : KeyWrite → Option KeyMetadata → Deks
  | .set _ dek, _ => initialVersion dek
  | .rotate deks _, _ => deks
  | .shred _, _ => ∅
  | .addDestination _, doc => visible doc

lemma apply_leaves {w : KeyWrite} {now : Date} {doc : Option KeyMetadata} {data : KeyMetadata}
    (h : w.apply now doc = .ok data) : data.deks = w.leaves doc := by
  cases w <;> cases doc <;> simp only [KeyWrite.apply, Except.ok.injEq, reduceCtorEq] at h
  all_goals rw [← h]; rfl

lemma exec_visible {a : (keyDocument userId).Action} {s s' : DocState}
    (h : KeyOp.exec a.op a.choice s = some (a.reply, s')) :
    visible s'.doc = match commits (.act a) with
      | some w => w.leaves s.doc
      | none => visible s.doc := by
  have hc := exec_commits h
  cases hw : commits (.act a) with
  | some w =>
    simp only [hw] at hc
    obtain ⟨data, hd, hs⟩ := hc
    rw [hs]
    exact apply_leaves hd
  | none =>
    simp only [hw] at hc
    rw [hc]

lemma commits_write {a : (keyDocument userId).Action} {w : KeyWrite} (h : commits (.act a) = some w) :
    a.op = .write w := by
  obtain ⟨t, op, choice, r⟩ := a
  simp only [commits] at h
  split at h
  · rename_i he
    cases he
    exact congrArg KeyOp.write (Option.some.inj h)
  · rename_i he
    cases he
    exact congrArg KeyOp.write (Option.some.inj h)
  · contradiction

lemma Numbered.leaves {w : KeyWrite} {doc snapshot : Option KeyMetadata} (hd : Numbered (visible doc))
    (hk : Numbered (visible snapshot)) (ha : snapshots.allowed snapshot (.write w)) :
    Numbered (w.leaves doc) := by
  cases w with
  | set userId dek => exact numbered_initialVersion dek
  | rotate deks activeDekId =>
    obtain ⟨data, newDek, rfl, rfl, rfl⟩ := ha
    exact hk.insert newDek
  | shred request => exact numbered_empty
  | addDestination destination => exact hd

lemma exec_snapshot {op : KeyOp} {choice : Outcome} {s s' : DocState} {r : Except String op.Res}
    (snapshot : Option KeyMetadata) (h : op.exec choice s = some (r, s')) :
    snapshots.next snapshot op r = snapshot ∨ snapshots.next snapshot op r = s.doc := by
  cases op with
  | get =>
    cases choice <;> cases h
    · right; rfl
    · left; rfl
  | _ => left; rfl

lemma orderedVersions_inductive {guard : (keyDocument userId).Guard} :
    Inductive snapshots (fun _ => True) guard OrderedVersions := by
  refine ⟨fun {s s' log a} hi ha => ⟨?_, fun t => ?_⟩, ?_⟩
  · rw [exec_visible ha.exec]
    split
    · rename_i w hw
      have hop := ha.allowed
      rw [commits_write hw] at hop
      exact hi.1.leaves (hi.2 a.tid) hop
    · exact hi.1
  · by_cases ht : a.tid = t
    · subst ht
      rw [known_act_self]
      rcases exec_snapshot (snapshots.known a.tid log) ha.exec with h | h
      · rw [h]
        exact hi.2 a.tid
      · rw [h]
        exact hi.1
    · rw [known_act_ne ht]
      exact hi.2 t
  · intro s s' log n hi _ he _
    obtain rfl := Option.some.inj he
    exact hi

lemma orderedVersions_start (now : Date) :
    OrderedVersions ⟨now, none⟩ ([] : (keyDocument userId).Log) :=
  ⟨numbered_empty, fun _ => numbered_empty⟩

lemma orderedVersions_reachable {now : Date} {guard : (keyDocument userId).Guard}
    {c : (keyDocument userId).Config} (h : Reachable guard (noDocument userId now) c) :
    OrderedVersions c.state c.log :=
  orderedVersions_inductive.run (snapshots_governs userId) (conforms_initial trivial)
    (orderedVersions_start now) h

def within (deks deks' : Deks) : Bool :=
  deks.keys.all fun v => deks'.lookup v == deks.lookup v

lemma lookup_within {deks deks' : Deks} {v : String} {dek : Dek} (h : within deks deks' = true)
    (hv : deks.lookup v = some dek) : deks'.lookup v = some dek := by
  have hm : v ∈ deks.keys := by
    rw [← AList.mem_keys, ← AList.lookup_isSome, hv]
    rfl
  have he := List.all_eq_true.mp h v hm
  rw [beq_iff_eq] at he
  rw [he, hv]

/-- A write is built from every key that the document holds when it lands: a generation from
the key it sets, a rotation from the keys it read. -/
def upToDate (doc snapshot : Option KeyMetadata) : KeyWrite → Bool
  | .set _ dek => within (visible doc) (initialVersion dek)
  | .rotate _ _ => within (visible doc) (visible snapshot)
  | .shred _ => false
  | .addDestination _ => true

/-- No shred commits, and every write that commits is up to date. -/
def keepsVersions : (keyDocument userId).Guard
  | s, log, .act a => (commits (.act a)).all (upToDate s.doc (snapshots.known a.tid log)) = true
  | _, _, .env _ => True

instance (s : DocState) (log : (keyDocument userId).Log) :
    ∀ e, Decidable (keepsVersions s log e)
  | .act _ => inferInstanceAs (Decidable (_ = true))
  | .env _ => inferInstanceAs (Decidable True)

lemma lookup_leaves {w : KeyWrite} {doc snapshot : Option KeyMetadata} {v : String} {dek : Dek}
    (hk : Numbered (visible snapshot)) (ha : snapshots.allowed snapshot (.write w))
    (hw : upToDate doc snapshot w = true) (hv : (visible doc).lookup v = some dek) :
    (w.leaves doc).lookup v = some dek := by
  cases w with
  | set userId dek => exact lookup_within hw hv
  | rotate deks activeDekId =>
    obtain ⟨data, newDek, rfl, rfl, rfl⟩ := ha
    have hs : data.deks.lookup v = some dek := lookup_within hw hv
    have hne : v ≠ versionId (data.deks.keys.length + 1) := by
      intro he
      have hf : versionId (data.deks.keys.length + 1) ∉ data.deks := Numbered.fresh hk
      rw [he, AList.lookup_eq_none.mpr hf] at hs
      contradiction
    exact (AList.lookup_insert_ne hne).trans hs
  | shred request => contradiction
  | addDestination destination => exact hv

lemma rotate_adds {deks : Deks} {v : String} {doc snapshot : Option KeyMetadata}
    (hk : Numbered (visible snapshot)) (ha : snapshots.allowed snapshot (.write (.rotate deks v)))
    (hw : upToDate doc snapshot (.rotate deks v) = true) : v ∉ visible doc ∧ v ∈ deks := by
  obtain ⟨data, newDek, rfl, rfl, rfl⟩ := ha
  constructor
  · intro hm
    obtain ⟨dek, hd⟩ := Option.isSome_iff_exists.mp (AList.lookup_isSome.mpr hm)
    have hs : data.deks.lookup _ = some dek := lookup_within hw hd
    have hf : versionId (data.deks.keys.length + 1) ∉ data.deks := Numbered.fresh hk
    rw [AList.lookup_eq_none.mpr hf] at hs
    contradiction
  · rw [AList.mem_insert]
    left
    rfl

lemma binding_inductive (v : String) (dek : Dek) :
    Inductive snapshots (fun _ => True) (@keepsVersions userId)
      (fun s log => OrderedVersions s log ∧ (visible s.doc).lookup v = some dek) := by
  refine ⟨fun {s s' log a} hi ha => ⟨orderedVersions_inductive.act hi.1 ha, ?_⟩, ?_⟩
  · have hg : (commits (.act a)).all (upToDate s.doc (snapshots.known a.tid log)) = true := ha.guard
    rw [exec_visible ha.exec]
    cases hw : commits (.act a) with
    | some w =>
      have hop := ha.allowed
      rw [commits_write hw] at hop
      rw [hw] at hg
      exact lookup_leaves (hi.1.2 a.tid) hop hg hi.2
    | none => exact hi.2
  · intro s s' log n hi _ he _
    obtain rfl := Option.some.inj he
    exact hi

theorem versions_are_kept {now : Date} {c d : (keyDocument userId).Config}
    (hc : Reachable free (noDocument userId now) c) (hd : Reachable keepsVersions c d) :
    (∀ v dek, (visible c.state.doc).lookup v = some dek → (visible d.state.doc).lookup v = some dek) ∧
    (∀ e entry deks v, Step keepsVersions d e → e.log = entry :: d.log →
      commits entry = some (.rotate deks v) → v ∉ visible d.state.doc ∧ v ∈ visible e.state.doc) := by
  have hg := snapshots_governs userId
  have hconf : Conforms snapshots (fun _ => True) c := (conforms_initial trivial).reachable hg hc
  have hord := orderedVersions_reachable hc
  constructor
  · intro v dek hv
    have hb : OrderedVersions c.state c.log ∧ (visible c.state.doc).lookup v = some dek := ⟨hord, hv⟩
    exact ((binding_inductive v dek).run hg hconf hb hd).2
  · intro e entry deks v hs hl hw
    have hd' := orderedVersions_inductive.run hg hconf hord hd
    cases entry with
    | act a =>
      have ha := (hconf.reachable hg hd).allowed_of_performs hg ⟨hs, hl⟩
      have hop := ha.allowed
      have hk : (commits (.act a)).all (upToDate d.state.doc (snapshots.known a.tid d.log)) = true := ha.guard
      rw [commits_write hw] at hop
      rw [hw] at hk
      rw [exec_visible ha.exec, hw]
      exact rotate_adds (hd'.2 a.tid) hop hk
    | env n => contradiction

section Runs

abbrev VersionEvent := (keyDocument "ada").Event

def generatedAlone : List VersionEvent :=
  [.start .keyGenerate, .act 0 .done, .act 0 .done, .act 0 (.dek [1]), .act 0 .done]

def rotatedAlone : List VersionEvent :=
  [.start .keyRotate, .act 1 .done, .act 1 (.dek [2]), .act 1 .done, .act 1 .done]

/-- Both entries of one batch find no key before either sets one. -/
def firstEntrySet : List VersionEvent :=
  [.start (.keysBatchGenerate 2), .act 0 .done, .pick 0 true, .act 0 .done, .pick 0 false, .act 0 .done,
    .pick 0 true, .act 0 (.dek [1]), .pick 0 true, .act 0 .done]

def secondEntrySet : List VersionEvent := [.act 0 (.dek [2]), .act 0 .done]

theorem versions_are_kept_rotated :
    ∃ c d, Reachable free (noDocument "ada" 0) c ∧ Reachable keepsVersions c d ∧
      "v2" ∈ visible d.state.doc ∧ (visible d.state.doc).lookup "v1" = some [1] := by
  have h : ∃ c, Reachable free (noDocument "ada" 0) c ∧ (visible c.state.doc).lookup "v1" = some [1] ∧
      (replay keepsVersions rotatedAlone c).any (fun d => "v2" ∈ visible d.state.doc) = true :=
    exists_reachable generatedAlone _ (by decide)
  obtain ⟨c, hc, hv, hr⟩ := h
  obtain ⟨d, hd, hm⟩ := exists_reachable rotatedAlone (fun d => "v2" ∈ visible d.state.doc) hr
  exact ⟨c, d, hc, hd, hm, (versions_are_kept hc hd).1 "v1" [1] hv⟩

def shredFree (log : (keyDocument userId).Log) : Bool :=
  log.all fun e => (commits e).all fun w => match w with
    | .shred _ => false
    | _ => true

theorem batch_rebinds_version :
    ∃ c d, Reachable free (noDocument "ada" 0) c ∧ Reachable free c d ∧ shredFree d.log = true ∧
      (visible c.state.doc).lookup "v1" = some [1] ∧ (visible d.state.doc).lookup "v1" = some [2] :=
  exists_reachable_later firstEntrySet secondEntrySet _ (by decide)

end Runs

end ChameleonVault.KeyRegistry
