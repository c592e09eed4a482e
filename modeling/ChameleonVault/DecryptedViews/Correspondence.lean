import ChameleonVault.DecryptedViews.Service
import ChameleonVault.PiiRegistry.Entries

/-! Which live view belongs to which declaration, over any calls one after another. -/

namespace ChameleonVault.DecryptedViews

open Concurrency Encoding
open KeyRegistry (Date)
open Deletion (isSafeIdentifier)

section Names

variable {tenantId viewName tenantId' viewName' : String}

lemma colon_not_mem_of_safe (h : isSafeIdentifier viewName = true) : ':' ∉ viewName.toList := by
  intro hm
  rw [isSafeIdentifier] at h
  split at h
  · cases h
  · rename_i c cs hname
    rw [hname] at hm
    obtain ⟨hc, hcs⟩ := Bool.and_eq_true_iff.mp h
    rcases List.mem_cons.mp hm with rfl | hm
    · cases hc
    · exact absurd (List.all_eq_true.mp hcs _ hm) (by decide)

lemma docId_inj (hsafe : isSafeIdentifier viewName = true) (hsafe' : isSafeIdentifier viewName' = true)
    (h : docId tenantId viewName = docId tenantId' viewName') : tenantId = tenantId' ∧ viewName = viewName' := by
  have hl : tenantId.toList ++ ':' :: viewName.toList = tenantId'.toList ++ ':' :: viewName'.toList := by
    simpa [docId, String.toList_append] using congrArg String.toList h
  obtain ⟨ht, hv⟩ := append_separator_inj (colon_not_mem_of_safe hsafe) (colon_not_mem_of_safe hsafe') hl
  exact ⟨String.toList_inj.mp ht, String.toList_inj.mp hv⟩

end Names

section Correspondence

def DecryptedViewDeclaration.tableId (declaration : DecryptedViewDeclaration) : String × String :=
  (declaration.bigqueryDataset, declaration.bigqueryViewName)

def ActiveAt (s : State) (id : String) (key : String × String) : Prop :=
  ∃ declaration, s.documents.lookup id = some declaration ∧ declaration.status = .active ∧ declaration.tableId = key

/-- Each live view has one active declaration, and each active declaration has its live view. -/
structure Matched (s : State) : Prop where
  live (key : String × String) : (s.tables.lookup key).isSome = true ↔ ∃ id, ActiveAt s id key
  one {id id' : String} {key : String × String} : ActiveAt s id key → ActiveAt s id' key → id = id'

/-- Declarations of different names have different views. -/
def Distinct (s : State) : Prop :=
  ∀ id id' declaration declaration', s.documents.lookup id = some declaration →
    s.documents.lookup id' = some declaration' → declaration.bigqueryViewName = declaration'.bigqueryViewName →
    declaration.tenantId = declaration'.tenantId ∧ declaration.viewName = declaration'.viewName

def unshared (tenantId viewName viewId : String) (s : State) : Prop :=
  ∀ document ∈ s.documents.entries, document.2.status = .revoked → document.2.bigqueryViewName = viewId →
    document.2.tenantId = tenantId ∧ document.2.viewName = viewName

/-- Nothing fails once a view has been created or deleted, and no view is created under the name that
a revoked declaration of another name had. -/
def steady (s : State) : Op → Choice → Prop
  | .createTable tenantId viewName _ viewId _, choice =>
    choice ≠ .unconfirmed ∧ (choice = .done → unshared tenantId viewName viewId s)
  | .deleteTable _ _, choice => choice ≠ .unconfirmed
  | .getIamPolicy _ _, choice => choice = .done
  | .setIamPolicy _ _ _, choice => choice = .done
  | .getDocument reader _, choice => reader ≠ .get → choice = .done
  | .setDocument _ _, choice => choice ≠ .failed
  | .updateDocument _ _ _, choice => choice ≠ .failed
  | .queryFields _, _ => True

def anyCall (_ : State) (_ : ViewCall) : Prop := True

structure Recorded (service : DecryptedViewService) (id : String) (declaration : DecryptedViewDeclaration) : Prop where
  id : id = docId declaration.tenantId declaration.viewName
  safe : isSafeIdentifier declaration.viewName = true
  dataset : declaration.bigqueryDataset = service.decryptedViewsDataset
  viewName : declaration.bigqueryViewName = declaration.tenantId ++ "_" ++ declaration.viewName

structure Inv (service : DecryptedViewService) (s : State) : Prop where
  matched : Matched s
  distinct : Distinct s
  recorded {id : String} {declaration : DecryptedViewDeclaration} :
    s.documents.lookup id = some declaration → Recorded service id declaration

variable {service : DecryptedViewService} {s t : State} {input : DeclareViewInput} {now : Date}
  {declaration : DecryptedViewDeclaration} {id tenantId viewName revokedBy : String}

lemma inv_empty : Inv service State.empty where
  matched := ⟨fun _ => ⟨nofun, fun ⟨_, _, h, _⟩ => nomatch h⟩, fun ⟨_, h, _⟩ => nomatch h⟩
  distinct := fun _ _ _ _ h => nomatch h
  recorded := fun h => nomatch h

lemma lookup_setDocument {id' : String} : (s.setDocument id declaration).documents.lookup id' =
    if id' = id then some declaration else s.documents.lookup id' := by
  by_cases h : id' = id
  · rw [if_pos h, h]
    exact AList.lookup_insert _
  · rw [if_neg h]
    exact AList.lookup_insert_ne h

lemma mem_of_lookup (h : s.documents.lookup id = some declaration) : ⟨id, declaration⟩ ∈ s.documents.entries :=
  AList.mem_lookup_iff.mp h

lemma activeAt_insert_ne {id' : String} {key : String × String} (h : id' ≠ id) :
    ActiveAt (s.setDocument id declaration) id' key ↔ ActiveAt s id' key := by
  rw [ActiveAt, ActiveAt, lookup_setDocument, if_neg h]

lemma activeAt_insert {key : String × String} : ActiveAt (s.setDocument id declaration) id key ↔
    declaration.status = .active ∧ declaration.tableId = key := by
  rw [ActiveAt, lookup_setDocument, if_pos rfl]
  simp

/-- The view has been created, and nothing is recorded of it. -/
structure Created (s : State) (key : String × String) (t : State) : Prop where
  documents : t.documents = s.documents
  tables (key' : String × String) :
    (t.tables.lookup key').isSome = true ↔ key' = key ∨ (s.tables.lookup key').isSome = true

/-- The view is gone, and nothing is recorded of that. -/
structure Deleted (s : State) (key : String × String) (t : State) : Prop where
  documents : t.documents = s.documents
  tables (key' : String × String) :
    (t.tables.lookup key').isSome = true ↔ key' ≠ key ∧ (s.tables.lookup key').isSome = true

lemma activeAt_congr {key : String × String} (h : t.documents = s.documents) : ActiveAt t id key ↔ ActiveAt s id key := by
  rw [ActiveAt, ActiveAt, h]

lemma Inv.live (h : Inv service s) (hl : s.documents.lookup id = some declaration) (ha : declaration.status = .active) :
    (s.tables.lookup declaration.tableId).isSome = true :=
  (h.matched.live _).mpr ⟨id, declaration, hl, ha, rfl⟩

lemma Inv.not_activeAt (h : Inv service s) (hsafe : isSafeIdentifier input.viewName = true)
    (habsent : s.tables.lookup (service.declaration input now).tableId = none) {key : String × String} :
    ¬ ActiveAt s (docId input.tenantId input.viewName) key := by
  rintro ⟨declaration, hl, ha, -⟩
  have hr := h.recorded hl
  obtain ⟨ht, hv⟩ := docId_inj hsafe hr.safe hr.id
  have hkey : declaration.tableId = (service.declaration input now).tableId := by
    rw [DecryptedViewDeclaration.tableId, hr.dataset, hr.viewName, ← ht, ← hv]
    rfl
  have hlive := h.live hl ha
  rw [hkey, habsent] at hlive
  cases hlive

lemma Inv.not_active_of_absent {key : String × String} (h : Inv service s) (habsent : s.tables.lookup key = none) :
    ¬ ActiveAt s id key := by
  intro ha
  have hlive := (h.matched.live key).mpr ⟨id, ha⟩
  rw [habsent] at hlive
  cases hlive

/-- A declaration whose view would have the same name is of the same view of the same tenant. -/
lemma Inv.named (h : Inv service s) (habsent : s.tables.lookup (service.declaration input now).tableId = none)
    (hunshared : unshared input.tenantId input.viewName input.viewId s)
    (hl : s.documents.lookup id = some declaration) (hname : declaration.bigqueryViewName = input.viewId) :
    declaration.tenantId = input.tenantId ∧ declaration.viewName = input.viewName := by
  cases hs : declaration.status with
  | active =>
    have hlive := h.live hl hs
    rw [DecryptedViewDeclaration.tableId, (h.recorded hl).dataset, hname] at hlive
    rw [DecryptedViewDeclaration.tableId] at habsent
    cases habsent.symm.trans (Option.eq_some_of_isSome hlive)
  | revoked => exact hunshared _ (mem_of_lookup hl) hs hname

lemma Inv.declared (h : Inv service s) (hsafe : isSafeIdentifier input.viewName = true)
    (habsent : s.tables.lookup (service.declaration input now).tableId = none)
    (hunshared : unshared input.tenantId input.viewName input.viewId s)
    (ht : Created s (service.declaration input now).tableId t) :
    Inv service (t.setDocument (docId input.tenantId input.viewName) (service.declaration input now)) := by
  have hold {id : String} {key : String × String} (hne : id ≠ docId input.tenantId input.viewName) :
      ActiveAt (t.setDocument (docId input.tenantId input.viewName) (service.declaration input now)) id key ↔
        ActiveAt s id key := (activeAt_insert_ne hne).trans (activeAt_congr ht.documents)
  have hkey {id : String} {declaration : DecryptedViewDeclaration} (hl : s.documents.lookup id = some declaration)
      (hname : declaration.bigqueryViewName = input.viewId) :
      declaration.tenantId = input.tenantId ∧ declaration.viewName = input.viewName :=
    h.named habsent hunshared hl hname
  have hnone (id : String) : ¬ ActiveAt s id (service.declaration input now).tableId := h.not_active_of_absent habsent
  refine ⟨⟨fun key => ?_, ?_⟩, ?_, ?_⟩
  · refine (ht.tables key).trans ?_
    constructor
    · rintro (rfl | hlive)
      · exact ⟨_, activeAt_insert.mpr ⟨rfl, rfl⟩⟩
      · obtain ⟨id, ha⟩ := (h.matched.live key).mp hlive
        have hne : id ≠ docId input.tenantId input.viewName := by
          rintro rfl
          exact h.not_activeAt hsafe habsent ha
        exact ⟨id, (hold hne).mpr ha⟩
    · rintro ⟨id, ha⟩
      by_cases hid : id = docId input.tenantId input.viewName
      · subst hid
        exact .inl (activeAt_insert.mp ha).2.symm
      · exact .inr ((h.matched.live key).mpr ⟨id, (hold hid).mp ha⟩)
  · intro id id' key ha ha'
    by_cases hid : id = docId input.tenantId input.viewName
    · by_cases hid' : id' = docId input.tenantId input.viewName
      · rw [hid, hid']
      · subst hid
        exact absurd ((hold hid').mp ha') ((activeAt_insert.mp ha).2 ▸ hnone id')
    · by_cases hid' : id' = docId input.tenantId input.viewName
      · subst hid'
        exact absurd ((hold hid).mp ha) ((activeAt_insert.mp ha').2 ▸ hnone id)
      · exact h.matched.one ((hold hid).mp ha) ((hold hid').mp ha')
  · intro id id' declaration declaration' hl hl' hname
    rw [lookup_setDocument, ht.documents] at hl hl'
    split at hl
    · obtain rfl := Option.some.inj hl
      split at hl'
      · obtain rfl := Option.some.inj hl'
        exact ⟨rfl, rfl⟩
      · obtain ⟨htenant, hview⟩ := hkey hl' hname.symm
        exact ⟨htenant.symm, hview.symm⟩
    · split at hl'
      · obtain rfl := Option.some.inj hl'
        exact hkey hl hname
      · exact h.distinct id id' declaration declaration' hl hl' hname
  · intro id declaration hl
    rw [lookup_setDocument, ht.documents] at hl
    split at hl
    · obtain rfl := Option.some.inj hl
      rename_i hid
      exact ⟨hid, hsafe, rfl, rfl⟩
    · exact h.recorded hl

lemma Inv.revoked (h : Inv service s) (hl : s.documents.lookup id = some declaration)
    (ha : declaration.status = .active) (ht : Deleted s declaration.tableId t) {revokedAt : Date} :
    Inv service (t.setDocument id (declaration.revoked revokedAt revokedBy)) := by
  have hold {id' : String} {key : String × String} : ActiveAt (t.setDocument id (declaration.revoked revokedAt revokedBy))
      id' key ↔ id' ≠ id ∧ ActiveAt s id' key := by
    by_cases hid : id' = id
    · subst hid
      refine iff_of_false (fun hactive => ?_) fun hne => hne.1 rfl
      cases (activeAt_insert.mp hactive).1
    · exact (activeAt_insert_ne hid).trans ((activeAt_congr ht.documents).trans (iff_and_self.mpr fun _ => hid))
  have hlookup {id' : String} {declaration' : DecryptedViewDeclaration}
      (hl' : (t.setDocument id (declaration.revoked revokedAt revokedBy)).documents.lookup id' = some declaration') :
      ∃ before, s.documents.lookup id' = some before ∧ declaration'.tenantId = before.tenantId ∧
        declaration'.viewName = before.viewName ∧ declaration'.tableId = before.tableId := by
    rw [lookup_setDocument, ht.documents] at hl'
    split at hl'
    · rename_i hid
      obtain rfl := Option.some.inj hl'
      exact ⟨declaration, hid ▸ hl, rfl, rfl, rfl⟩
    · exact ⟨declaration', hl', rfl, rfl, rfl⟩
  refine ⟨⟨fun key => (ht.tables key).trans ?_, ?_⟩, ?_, ?_⟩
  · constructor
    · rintro ⟨hne, hlive⟩
      obtain ⟨id', hactive⟩ := (h.matched.live key).mp hlive
      refine ⟨id', hold.mpr ⟨?_, hactive⟩⟩
      rintro rfl
      obtain ⟨declaration', hl', -, hkey⟩ := hactive
      obtain rfl := Option.some.inj (hl.symm.trans hl')
      exact hne hkey.symm
    · rintro ⟨id', hactive⟩
      obtain ⟨hne, hactive⟩ := hold.mp hactive
      refine ⟨?_, (h.matched.live key).mpr ⟨id', hactive⟩⟩
      rintro rfl
      exact hne (h.matched.one hactive ⟨declaration, hl, ha, rfl⟩)
  · intro id₁ id₂ key h₁ h₂
    exact h.matched.one (hold.mp h₁).2 (hold.mp h₂).2
  · intro id₁ id₂ declaration₁ declaration₂ h₁ h₂ hname
    obtain ⟨before₁, hb₁, htenant₁, hview₁, htable₁⟩ := hlookup h₁
    obtain ⟨before₂, hb₂, htenant₂, hview₂, htable₂⟩ := hlookup h₂
    rw [htenant₁, hview₁, htenant₂, hview₂]
    refine h.distinct id₁ id₂ before₁ before₂ hb₁ hb₂ ?_
    exact (Prod.mk.inj htable₁).2.symm.trans (hname.trans (Prod.mk.inj htable₂).2)
  · intro id' declaration' hl'
    obtain ⟨before, hb, htenant, hview, htable⟩ := hlookup hl'
    obtain ⟨hid, hsafe, hdataset, hname⟩ := h.recorded hb
    obtain ⟨hdataset', hname'⟩ := Prod.mk.inj htable
    exact ⟨by rw [htenant, hview, hid], hview ▸ hsafe, hdataset'.trans hdataset, by rw [hname', hname, htenant, hview]⟩

section Operations

variable {choice : Choice} {e : ViewError} {dataset viewId viewSql : String} {bindings : List Binding}

lemma change_ok {apply : State → Except ViewError State} {u : Unit} (h : change apply choice s = some (.ok u, t)) :
    choice = .done ∧ apply s = .ok t := by
  cases happly : apply s <;> cases choice <;> simp_all [change]

lemma change_error {apply : State → Except ViewError State} (h : change apply choice s = some (.error e, t)) :
    t = s ∧ (choice = .failed ∧ e = unavailable ∨ choice = .done ∧ apply s = .error e) ∨
      choice = .unconfirmed ∧ apply s = .ok t := by
  cases happly : apply s <;> cases choice <;> simp_all [change]

lemma answer_ok {α : Type} {read : State → Except ViewError α} {a : α} (h : answer read choice s = some (.ok a, t)) :
    read s = .ok a ∧ t = s := by
  cases choice with
  | done =>
    obtain ⟨hread, rfl⟩ := Prod.mk.inj (Option.some.inj h)
    exact ⟨hread, rfl⟩
  | failed => cases (Prod.mk.inj (Option.some.inj h)).1
  | unconfirmed | rows fieldNames => cases h

lemma answer_error {α : Type} {read : State → Except ViewError α} (h : answer read choice s = some (.error e, t)) :
    t = s ∧ (choice = .failed ∨ read s = .error e) := by
  cases choice with
  | done =>
    obtain ⟨hread, rfl⟩ := Prod.mk.inj (Option.some.inj h)
    exact ⟨rfl, .inr hread⟩
  | failed => exact ⟨(Prod.mk.inj (Option.some.inj h)).2.symm, .inl rfl⟩
  | unconfirmed | rows fieldNames => cases h

lemma exec_createTable : (Op.createTable tenantId viewName dataset viewId viewSql).exec choice s =
    change (State.createTable dataset viewId viewSql) choice s := rfl

lemma exec_getIamPolicy : (Op.getIamPolicy dataset viewId).exec choice s =
    answer (State.getIamPolicy dataset viewId) choice s := rfl

lemma exec_setIamPolicy : (Op.setIamPolicy dataset viewId bindings).exec choice s =
    change (State.setIamPolicy dataset viewId bindings) choice s := rfl

lemma exec_deleteTable : (Op.deleteTable dataset viewId).exec choice s =
    change (State.deleteTable dataset viewId) choice s := rfl

lemma exec_getDocument {reader : Reader} : (Op.getDocument reader id).exec choice s =
    answer (fun s => .ok (s.documents.lookup id)) choice s := rfl

lemma exec_setDocument : (Op.setDocument id declaration).exec choice s =
    change (fun s => .ok (s.setDocument id declaration)) choice s := rfl

lemma exec_updateDocument : (Op.updateDocument id now revokedBy).exec choice s =
    change (State.updateDocument id now revokedBy) choice s := rfl

lemma must_queryFields {ok : List String → State → Prop} {err : ViewError → State → Prop}
    (hok : ∀ available, ok available s) (herr : ∀ e, err e s) :
    MustCall Op.exec steady (perform (Op.queryFields tenantId)) s ok err := by
  refine .perform (fun choice available t _ he => ?_) fun choice e t _ he => ?_
  · obtain rfl : t = s := by cases choice <;> cases he; rfl
    exact hok available
  · obtain rfl : t = s := by cases choice <;> cases he; rfl
    exact herr e

lemma must_createTable {ok : Unit → State → Prop} {err : ViewError → State → Prop}
    (hok : ∀ t, s.tables.lookup (dataset, viewId) = none → unshared tenantId viewName viewId s →
      Created s (dataset, viewId) t → ok () t) (herr : ∀ e, err e s) :
    MustCall Op.exec steady (perform (Op.createTable tenantId viewName dataset viewId viewSql)) s ok err := by
  refine .perform ?_ ?_
  · rintro choice u t ⟨-, hunshared⟩ he
    obtain ⟨hdone, hcreate⟩ := change_ok (exec_createTable ▸ he)
    rw [State.createTable] at hcreate
    split at hcreate
    · cases hcreate
    · rename_i habsent
      obtain rfl := Except.ok.inj hcreate
      refine hok _ habsent (hunshared hdone) ⟨rfl, fun key => ?_⟩
      by_cases hkey : key = (dataset, viewId)
      · rw [hkey, AList.lookup_insert]
        simp
      · rw [AList.lookup_insert_ne hkey]
        simp [hkey]
  · rintro choice e t ⟨hchoice, -⟩ he
    rcases change_error (exec_createTable ▸ he) with ⟨rfl, -⟩ | ⟨hf, -⟩
    · exact herr e
    · exact absurd hf hchoice

lemma must_getIamPolicy {ok : Option (List Binding) → State → Prop} {err : ViewError → State → Prop}
    (hlive : (s.tables.lookup (dataset, viewId)).isSome = true) (hok : ∀ policy, ok policy s) :
    MustCall Op.exec steady (perform (Op.getIamPolicy dataset viewId)) s ok err := by
  refine .perform ?_ ?_
  · rintro choice policy t - he
    obtain ⟨-, rfl⟩ := answer_ok (exec_getIamPolicy ▸ he)
    exact hok policy
  · rintro choice e t rfl he
    obtain ⟨-, hf | hf⟩ := answer_error (exec_getIamPolicy ▸ he)
    · cases hf
    · rw [State.getIamPolicy] at hf
      split at hf
      · cases hf
      · rename_i hnone
        rw [hnone] at hlive
        cases hlive

lemma must_setIamPolicy {err : ViewError → State → Prop} (ht : Created s (dataset, viewId) t) :
    MustCall Op.exec steady (perform (Op.setIamPolicy dataset viewId bindings)) t
      (fun _ => Created s (dataset, viewId)) err := by
  obtain ⟨table, htable⟩ := Option.isSome_iff_exists.mp ((ht.tables (dataset, viewId)).mpr (.inl rfl))
  refine .perform ?_ ?_
  · rintro choice u t' - he
    obtain ⟨-, hset⟩ := change_ok (exec_setIamPolicy ▸ he)
    rw [State.setIamPolicy, htable] at hset
    obtain rfl := Except.ok.inj hset
    refine ⟨ht.documents, fun key => ?_⟩
    rw [← ht.tables key]
    by_cases hkey : key = (dataset, viewId)
    · rw [hkey, AList.lookup_insert, htable]
      simp
    · rw [AList.lookup_insert_ne hkey]
  · rintro choice e t' rfl he
    rcases change_error (exec_setIamPolicy ▸ he) with ⟨-, ⟨hf, -⟩ | ⟨-, hf⟩⟩ | ⟨hf, -⟩
    · cases hf
    · rw [State.setIamPolicy, htable] at hf
      cases hf
    · cases hf

lemma must_deleteTable {ok : Unit → State → Prop} {err : ViewError → State → Prop}
    (hlive : (s.tables.lookup (dataset, viewId)).isSome = true) (hok : ∀ t, Deleted s (dataset, viewId) t → ok () t)
    (herr : err unavailable s) : MustCall Op.exec steady (perform (Op.deleteTable dataset viewId)) s ok err := by
  obtain ⟨table, htable⟩ := Option.isSome_iff_exists.mp hlive
  refine .perform ?_ ?_
  · rintro choice u t - he
    obtain ⟨-, hdelete⟩ := change_ok (exec_deleteTable ▸ he)
    rw [State.deleteTable, htable] at hdelete
    obtain rfl := Except.ok.inj hdelete
    refine hok _ ⟨rfl, fun key => ?_⟩
    by_cases hkey : key = (dataset, viewId)
    · rw [hkey, AList.lookup_erase]
      simp
    · rw [AList.lookup_erase_ne hkey]
      simp [hkey]
  · rintro choice e t hchoice he
    rcases change_error (exec_deleteTable ▸ he) with ⟨rfl, ⟨-, rfl⟩ | ⟨-, hf⟩⟩ | ⟨hf, -⟩
    · exact herr
    · rw [State.deleteTable, htable] at hf
      cases hf
    · exact absurd hf hchoice

lemma must_getDocument {reader : Reader} {ok : Option DecryptedViewDeclaration → State → Prop}
    {err : ViewError → State → Prop} (hok : ok (s.documents.lookup id) s) (herr : reader = .get → ∀ e, err e s) :
    MustCall Op.exec steady (perform (Op.getDocument reader id)) s ok err := by
  refine .perform ?_ ?_
  · rintro choice existing t - he
    obtain ⟨hread, rfl⟩ := answer_ok (exec_getDocument ▸ he)
    exact Except.ok.inj hread ▸ hok
  · rintro choice e t hchoice he
    obtain ⟨rfl, hf | hf⟩ := answer_error (exec_getDocument ▸ he)
    · refine herr (Decidable.byContradiction fun hne => ?_) e
      cases (hchoice hne).symm.trans hf
    · cases hf

lemma must_setDocument {post : State → Prop} (h : post (s.setDocument id declaration)) :
    MustCall Op.exec steady (perform (Op.setDocument id declaration)) s (fun _ => post) fun _ => post := by
  refine .perform ?_ ?_
  · rintro choice u t - he
    obtain ⟨-, hset⟩ := change_ok (exec_setDocument ▸ he)
    exact Except.ok.inj hset ▸ h
  · rintro choice e t hchoice he
    rcases change_error (exec_setDocument ▸ he) with ⟨-, ⟨hf, -⟩ | ⟨-, hf⟩⟩ | ⟨-, hset⟩
    · exact absurd hf hchoice
    · cases hf
    · exact Except.ok.inj hset ▸ h

lemma must_updateDocument {post : State → Prop} (hl : s.documents.lookup id = some declaration)
    (h : post (s.setDocument id (declaration.revoked now revokedBy))) :
    MustCall Op.exec steady (perform (Op.updateDocument id now revokedBy)) s (fun _ => post) fun _ => post := by
  have hupdate : s.updateDocument id now revokedBy = .ok (s.setDocument id (declaration.revoked now revokedBy)) := by
    rw [State.updateDocument, hl]
  refine .perform ?_ ?_
  · rintro choice u t - he
    obtain ⟨-, hset⟩ := change_ok (exec_updateDocument ▸ he)
    exact Except.ok.inj (hupdate.symm.trans hset) ▸ h
  · rintro choice e t hchoice he
    rcases change_error (exec_updateDocument ▸ he) with ⟨-, ⟨hf, -⟩ | ⟨-, hf⟩⟩ | ⟨-, hset⟩
    · exact absurd hf hchoice
    · cases hupdate.symm.trans hf
    · exact Except.ok.inj (hupdate.symm.trans hset) ▸ h

end Operations

section Calls

lemma must_checked {α : Type} {r : Except String α} {ok : α → State → Prop} {err : ViewError → State → Prop}
    (hok : ∀ a, r = .ok a → ok a s) (herr : ∀ e, err e s) : MustCall Op.exec steady (checked r) s ok err := by
  cases r with
  | ok a => exact .pure (hok a rfl)
  | error text => exact .throw (herr _)

lemma must_create (h : Inv service s) (hsafe : isSafeIdentifier input.viewName = true)
    (habsent : s.tables.lookup (service.declaration input now).tableId = none)
    (hunshared : unshared input.tenantId input.viewName input.viewId s)
    (ht : Created s (service.declaration input now).tableId t) :
    MustCall Op.exec steady (DecryptedViewsRepository.create (service.declaration input now)) t
      (fun _ => Inv service) fun _ => Inv service := by
  refine .bind (must_getDocument ?_ nofun)
  have hnone : (t.documents.lookup (docId input.tenantId input.viewName)).any (·.status = .active) = false := by
    rw [ht.documents, Option.any_eq_false]
    intro declaration hl
    exact decide_eq_false fun ha => h.not_activeAt hsafe habsent ⟨declaration, hl, ha, rfl⟩
  refine (if_neg (Bool.eq_false_iff.mp hnone)).symm ▸ ?_
  refine .bind ((must_setDocument (h.declared hsafe habsent hunshared ht)).mono (fun _ _ hinv => ?_) fun _ _ hinv => hinv)
  exact .pure hinv

lemma must_declareView (h : Inv service s) : MustCall Op.exec steady (service.declareView input now) s
    (fun _ => Inv service) fun _ => Inv service := by
  refine .bind (must_checked (fun _ hinput => ?_) fun _ => h)
  obtain ⟨hsafe, -, -⟩ := checkInput_ok_iff.mp hinput
  refine .bind (must_queryFields (fun available => ?_) fun _ => h)
  refine .bind (must_checked (fun _ _ => ?_) fun _ => h)
  refine .bind (must_createTable (fun t habsent hunshared ht => ?_) fun _ => h)
  have hlive := (ht.tables (service.decryptedViewsDataset, input.viewId)).mpr (.inl rfl)
  refine .bind (.bind (must_getIamPolicy hlive fun policy => ?_))
  refine (must_setIamPolicy ht).mono (fun _ t' ht' => ?_) fun _ _ hinv => hinv
  exact must_create h hsafe habsent hunshared ht'

lemma must_revokeView (h : Inv service s) :
    MustCall Op.exec steady (DecryptedViewService.revokeView tenantId viewName revokedBy now) s
      (fun _ => Inv service) fun _ => Inv service := by
  refine .bind (must_getDocument ?_ fun _ _ => h)
  cases hl : s.documents.lookup (docId tenantId viewName) with
  | none => exact .pure h
  | some existing =>
    simp only []
    split
    · rename_i ha
      refine .bind (.tryCatch (must_deleteTable (h.live hl ha) (fun t ht => ?_) (.throw h)))
      have hlookup : t.documents.lookup (docId tenantId viewName) = some existing := by rw [ht.documents, hl]
      refine .bind (must_getDocument ?_ nofun)
      rw [hlookup]
      have hrevoked : Inv service (t.setDocument (docId tenantId viewName) (existing.revoked now revokedBy)) :=
        h.revoked hl ha ht
      refine .bind ((must_updateDocument hlookup hrevoked).mono (fun _ _ hinv => ?_) fun _ _ hinv => hinv)
      exact .pure hinv
    · exact .pure h

lemma must_call (h : Inv service s) (call : ViewCall) :
    Must Op.exec steady (call.body service) s fun _ => Inv service := by
  have ends {α : Type} {x : Service α} (hx : MustCall Op.exec steady x s (fun _ => Inv service) fun _ => Inv service) :
      Must Op.exec steady (ignore x) s fun _ => Inv service := by
    refine .bind (.mono hx ?_)
    rintro (e | a) t ht
    · exact .done ht
    · exact .done ht
  cases call with
  | declareView input now => exact ends (must_declareView h)
  | revokeView tenantId viewName revokedBy now => exact ends (must_revokeView h)

end Calls

section Sequences

theorem views_match_declarations (h : Succession Op.exec (ViewCall.body service) anyCall steady State.empty s) :
    Matched s ∧ Distinct s ∧ ∀ input input', checkInput input = .ok () → checkInput input' = .ok () →
      docId input.tenantId input.viewName = docId input'.tenantId input'.viewName →
      input.tenantId = input'.tenantId ∧ input.viewName = input'.viewName := by
  have hinv : Inv service s := Succession.keeps (fun _ call hs _ => must_call hs call) h inv_empty
  refine ⟨hinv.matched, hinv.distinct, fun input input' hinput hinput' hid => ?_⟩
  exact docId_inj (checkInput_ok_iff.mp hinput).1 (checkInput_ok_iff.mp hinput').1 hid

instance : ∀ s op choice, Decidable (steady s op choice)
  | _, .createTable _ _ _ _ _, _ => inferInstanceAs (Decidable (_ ∧ (_ → ∀ document ∈ _, _)))
  | _, .deleteTable _ _, _ => inferInstanceAs (Decidable (_ ≠ _))
  | _, .getIamPolicy _ _, _ => inferInstanceAs (Decidable (_ = _))
  | _, .setIamPolicy _ _ _, _ => inferInstanceAs (Decidable (_ = _))
  | _, .getDocument _ _, _ => inferInstanceAs (Decidable (_ → _))
  | _, .setDocument _ _, _ => inferInstanceAs (Decidable (_ ≠ _))
  | _, .updateDocument _ _ _, _ => inferInstanceAs (Decidable (_ ≠ _))
  | _, .queryFields _, _ => isTrue trivial

instance (s : State) (call : ViewCall) : Decidable (anyCall s call) := isTrue trivial

def declared (tenantId : String) : ViewCall × List Choice :=
  (.declareView (viewInput tenantId) 0, [.rows ["email"], .done, .done, .done, .done, .done])

theorem views_match_declarations_revoked : ∃ s,
    Succession Op.exec (ViewCall.body viewService) anyCall steady State.empty s ∧
    s.tables.keys = [("views", "globex_contacts")] ∧ s.documents.keys = ["acme:contacts", "globex:contacts"] ∧
    Matched s := by
  have hrun : ∃ s, Succession Op.exec (ViewCall.body viewService) anyCall steady State.empty s ∧
      s.tables.keys = [("views", "globex_contacts")] ∧ s.documents.keys = ["acme:contacts", "globex:contacts"] :=
    exists_succession [declared "acme", declared "globex",
      (.revokeView "acme" "contacts" "ada" 1, [.done, .done, .done, .unconfirmed])] _ (by decide +kernel)
  obtain ⟨s, hs, htables, hdocuments⟩ := hrun
  exact ⟨s, hs, htables, hdocuments, (views_match_declarations hs).1⟩

def anyChoice (_ : State) (_ : Op) (_ : Choice) : Prop := True

instance (s : State) (op : Op) (choice : Choice) : Decidable (anyChoice s op choice) := isTrue trivial

/-- The view is live when the grant fails, and cannot be revoked, as nothing was recorded of it. -/
theorem ungranted_view_unrecorded : ∃ s,
    Succession Op.exec (ViewCall.body viewService) anyCall anyChoice State.empty s ∧
    s.tables.keys = [("views", "acme_contacts")] ∧ s.documents.keys = [] ∧ ¬ Matched s := by
  have hrun : ∃ s, Succession Op.exec (ViewCall.body viewService) anyCall anyChoice State.empty s ∧
      s.tables.keys = [("views", "acme_contacts")] ∧ s.documents.keys = [] :=
    exists_succession [(.declareView (viewInput "acme") 0, [.rows ["email"], .done, .done, .failed]),
      (.revokeView "acme" "contacts" "ada" 1, [.done])] _ (by decide +kernel)
  obtain ⟨s, hs, htables, hdocuments⟩ := hrun
  refine ⟨s, hs, htables, hdocuments, fun hmatched => ?_⟩
  have hlive : (s.tables.lookup ("views", "acme_contacts")).isSome = true := by
    rw [AList.lookup_isSome, AList.mem_keys, htables]
    exact List.mem_singleton.mpr rfl
  obtain ⟨id, declaration, hl, -⟩ := (hmatched.live _).mp hlive
  have hmem : id ∈ s.documents.keys := AList.mem_keys.mpr (AList.lookup_isSome.mp (hl ▸ rfl))
  rw [hdocuments] at hmem
  cases hmem

end Sequences

end Correspondence

end ChameleonVault.DecryptedViews
