import ChameleonVault.Collections.DocumentPaths
import ChameleonVault.Concurrency.Purge
import ChameleonVault.KeyRegistry.Operations

/-! The key documents of all tenants and users in one collection, and the routes that reach them.
Which document an id names is for the store to say. -/

namespace ChameleonVault.KeyRegistry

open Collections Concurrency Interleaving

section Collection

structure Owner where
  tenantId : String
  userId : String
  deriving DecidableEq

def Owner.docId (owner : Owner) : String := getDocId owner.tenantId owner.userId

structure Collection (D : Type) where
  clock : Date
  docs : D → Option KeyMetadata

structure OwnedOp where
  owner : Owner
  op : KeyOp

def KeyOp.readsDoc : KeyOp → Bool
  | .get => true
  | .write _ => true
  | _ => false

variable {D : Type} (document : String → Option D)

def Collection.of (s : Collection D) (owner : Owner) : DocState := ⟨s.clock, (document owner.docId).bind s.docs⟩

variable [DecidableEq D]

def OwnedOp.exec (o : OwnedOp) (choice : Outcome) (s : Collection D) : Option (Except String o.op.Res × Collection D) :=
  match document o.owner.docId with
  | some path => (o.op.exec choice ⟨s.clock, s.docs path⟩).map fun r =>
      (r.1, { s with docs := Function.update s.docs path r.2.doc })
  -- the client throws on an id that names no document
  | none =>
    if o.op.readsDoc = true ∧ choice ≠ .fail false then none
    else (o.op.exec choice ⟨s.clock, none⟩).map fun r => (r.1, s)

/-- The calls that the routes make of the registry, each for one owner. -/
inductive KeyRequest where
  | job (job : KeyJob)
  | getKeyStatus

def KeyRequest.body (userId : String) : KeyRequest → Prog KeyOp (fun op => Except String op.Res) Unit
  | .job keyJob => keyJob.body userId
  | .getKeyStatus => ignore get

def isUserIdChar (c : Char) : Bool := c.isAlphanum || c == '-' || c == '_'

/-- `/^[a-zA-Z0-9-_]+$/`, at most 64 characters -/
def userIdSchema (userId : String) : Bool :=
  decide (1 ≤ userId.length ∧ userId.length ≤ 64) && userId.toList.all isUserIdChar

/-- Decrypting from the vault, auditing a key and asking for a certificate take any user id. -/
def KeyRequest.unrestricted : KeyRequest → Bool
  | .job (.getKeyForUser _) => true
  | .job .hasActiveKeyMaterial => true
  | .getKeyStatus => true
  | _ => false

structure OwnedRequest where
  owner : Owner
  request : KeyRequest

def OwnedRequest.accepted (r : OwnedRequest) : Bool := r.request.unrestricted || userIdSchema r.owner.userId

abbrev keyCollection : Interleaving where
  State := Collection D
  Op := OwnedOp
  Ret := fun o => Except String o.op.Res
  Choice := Outcome
  Env := ℕ
  Job := OwnedRequest
  exec := OwnedOp.exec document
  env := fun n s => some { s with clock := s.clock + n }
  body := fun r => (r.request.body r.owner.userId).rename (fun op => ⟨r.owner, op⟩) fun _ reply => reply
  forks := fun _ _ => []
  client := OwnedRequest.accepted

end Collection

section Documents

variable {D : Type} {document : String → Option D} {first second : Owner} {s t : Collection D} {o : OwnedOp}
  {choice : Outcome} {path : D}

def Shared (document : String → Option D) (first second : Owner) : Prop :=
  ∃ path, document first.docId = some path ∧ document second.docId = some path

/-- One document id for two owners: the tenant of the one ends where the user id of the other begins. -/
def Overlaps (first second : Owner) : Prop :=
  ∃ w, first.tenantId = second.tenantId ++ ":" ++ w ∧ second.userId = w ++ ":" ++ first.userId

lemma colon_not_mem (h : userIdSchema first.userId = true) : ':' ∉ first.userId.toList := by
  intro hm
  simp only [userIdSchema, Bool.and_eq_true, List.all_eq_true] at h
  exact absurd (h.2 ':' hm) (by decide)

lemma docId_toList (owner : Owner) : owner.docId.toList = owner.tenantId.toList ++ ':' :: owner.userId.toList := by
  simp [Owner.docId, getDocId, String.toList_append]

lemma shared_of_overlaps (h : Overlaps first second) (hp : document second.docId = some path) :
    Shared document first second := by
  obtain ⟨w, htenant, huser⟩ := h
  refine ⟨path, ?_, hp⟩
  rw [← hp]
  simp only [Owner.docId, getDocId, htenant, huser, String.append_assoc]

lemma eq_or_overlaps (hcolon : ':' ∉ first.userId.toList) (h : first.docId = second.docId) :
    first = second ∨ Overlaps first second := by
  have hlist := congrArg String.toList h
  rw [docId_toList, docId_toList] at hlist
  have hsame (htenant : first.tenantId.toList = second.tenantId.toList)
      (huser : first.userId.toList = second.userId.toList) : first = second := by
    obtain ⟨_, _⟩ := first
    obtain ⟨_, _⟩ := second
    rw [String.toList_inj] at htenant huser
    exact congrArg₂ Owner.mk htenant huser
  rcases List.append_eq_append_iff.mp hlist with ⟨w, htenant, huser⟩ | ⟨w, htenant, huser⟩
  · cases w with
    | nil => exact .inl (hsame (by simpa using htenant.symm) (by simpa using huser))
    | cons x w =>
      have hm : ':' ∈ first.userId.toList := by
        rw [(List.cons.inj huser).2]
        simp
      exact absurd hm hcolon
  · cases w with
    | nil => exact .inl (hsame (by simpa using htenant) (by simpa using huser.symm))
    | cons x w =>
      obtain ⟨rfl, hsecond⟩ : ':' = x ∧ second.userId.toList = w ++ ':' :: first.userId.toList := List.cons.inj huser
      refine .inr ⟨String.ofList w, ?_, ?_⟩
      · rw [← String.toList_inj, htenant]
        simp [String.toList_append]
      · rw [← String.toList_inj, hsecond]
        simp [String.toList_append]

/-- A pair of checked user ids is always apart, whatever the tenants are. -/
lemma not_overlaps (h : userIdSchema second.userId = true) : ¬ Overlaps first second := by
  rintro ⟨w, -, huser⟩
  refine colon_not_mem h ?_
  rw [huser]
  simp [String.toList_append]

variable [DecidableEq D]

lemma exec_eq_some_iff {r : Except String o.op.Res} (hp : document o.owner.docId = some path) :
    o.exec document choice s = some (r, t) ↔
      ∃ d, o.op.exec choice ⟨s.clock, s.docs path⟩ = some (r, d) ∧
        t = { s with docs := Function.update s.docs path d.doc } := by
  simp only [OwnedOp.exec, hp, Option.map_eq_some_iff, Prod.mk.injEq, Prod.exists]
  constructor
  · rintro ⟨r', d, h, rfl, rfl⟩
    exact ⟨d, h, rfl⟩
  · rintro ⟨d, h, rfl⟩
    exact ⟨r, d, h, rfl, rfl⟩

lemma exec_refused {r : Except String o.op.Res} (hp : document o.owner.docId = none)
    (h : o.exec document choice s = some (r, t)) : t = s := by
  simp only [OwnedOp.exec, hp, Option.ite_none_left_eq_some, Option.map_eq_some_iff, Prod.mk.injEq, Prod.exists] at h
  obtain ⟨-, r', d, -, -, rfl⟩ := h
  rfl

lemma exec_refused_congr {s' : Collection D} {r : Except String o.op.Res} (hp : document o.owner.docId = none)
    (hclock : s'.clock = s.clock) (h : o.exec document choice s = some (r, t)) :
    o.exec document choice s' = some (r, s') := by
  simp only [OwnedOp.exec, hp, hclock, Option.ite_none_left_eq_some, Option.map_eq_some_iff, Prod.mk.injEq,
    Prod.exists] at h ⊢
  obtain ⟨hc, r', d, he, rfl, -⟩ := h
  exact ⟨hc, r', d, he, rfl, trivial⟩

lemma clock_of_exec {r : Except String o.op.Res} (h : o.exec document choice s = some (r, t)) : t.clock = s.clock := by
  cases hp : document o.owner.docId with
  | none => rw [exec_refused hp h]
  | some path =>
    obtain ⟨d, -, rfl⟩ := (exec_eq_some_iff hp).mp h
    rfl

lemma docs_of_ne {r : Except String o.op.Res} (h : o.exec document choice s = some (r, t))
    (hne : document o.owner.docId ≠ some path) : t.docs path = s.docs path := by
  cases hp : document o.owner.docId with
  | none => rw [exec_refused hp h]
  | some path' =>
    obtain ⟨d, -, rfl⟩ := (exec_eq_some_iff hp).mp h
    refine Function.update_of_ne ?_ _ _
    rintro rfl
    exact hne hp

lemma exec_get {op : KeyOp} {r : Except String op.Res} {d d' : DocState} (hop : op = .get)
    (h : op.exec choice d = some (r, d')) : d' = d := by
  subst hop
  cases choice <;> cases h <;> rfl

lemma docs_of_get {r : Except String o.op.Res} (h : o.exec document choice s = some (r, t)) (hop : o.op = .get) :
    t.docs = s.docs := by
  cases hp : document o.owner.docId with
  | none => rw [exec_refused hp h]
  | some path =>
    obtain ⟨d, hd, rfl⟩ := (exec_eq_some_iff hp).mp h
    obtain rfl := exec_get hop hd
    exact Function.update_eq_self path s.docs

end Documents

section Requests

variable {D : Type} [DecidableEq D] {document : String → Option D} {r : OwnedRequest}

lemma uses_get {userId : String} {request : KeyRequest} (h : request.unrestricted = true) :
    (request.body userId).Uses (· = .get) := by
  have hget : (get.run : Prog KeyOp (fun op => Except String op.Res) _).Uses (· = .get) := Call.uses_perform rfl
  have hignore {α : Type} {x : KeyCall α} (hx : x.run.Uses (· = .get)) : (ignore x).Uses (· = .get) :=
    Prog.Uses.bind hx fun _ => trivial
  cases request with
  | getKeyStatus => exact hignore hget
  | job job =>
    cases job with
    | getKeyForUser keyVersionId =>
      refine hignore (Call.uses_bind hget fun doc => ?_)
      split
      · exact Call.uses_pure _
      · exact Call.uses_throw _
    | hasActiveKeyMaterial => exact hignore (Call.uses_bind hget fun doc => Call.uses_pure _)
    | _ => cases h

abbrev Checked (o : OwnedOp) : Prop := userIdSchema o.owner.userId = true ∨ o.op = .get

/-- All that a request does is for its owner, and what it writes has a checked user id. -/
lemma uses_body (h : r.accepted = true) : ((keyCollection document).body r).Uses fun o => o.owner = r.owner ∧ Checked o := by
  refine .rename ?_
  rcases (Bool.or_eq_true _ _).mp h with h | h
  · exact (uses_get h).mono fun op hop => ⟨rfl, .inr hop⟩
  · exact (Prog.Uses.any _).mono fun op _ => ⟨rfl, .inl h⟩

end Requests

section Isolation

variable {D : Type} [DecidableEq D] {document : String → Option D} {first second : Owner}

def isOf (owner : Owner) : (keyCollection document).Entry → Bool
  | .act a => a.op.owner = owner
  | .env _ => false

/-- Nothing done for the first owner changes the document of the second, and in every run the second
fares as in a run where nothing is done for the first. -/
def Isolated (document : String → Option D) (first second : Owner) : Prop :=
  ∀ (s : Collection D) (c : (keyCollection document).Config), Reachable free (initial s) c →
    (∀ a d, Performs free c a d → a.op.owner = first → d.state.of document second = c.state.of document second) ∧
    ∃ d, Reachable free (initial s) d ∧ (∀ e ∈ d.log, isOf first e = false) ∧
      d.log.filter (isOf second) = c.log.filter (isOf second) ∧ d.state.of document second = c.state.of document second

/-- What is done here for the first owner can neither be a write of the second owner's document nor be seen there. -/
def isSeen (document : String → Option D) (first second : Owner) (o : OwnedOp) : Bool :=
  decide (document o.owner.docId = document second.docId ∧ o.owner ≠ first)

def Unseen (document : String → Option D) (first second : Owner) (o : OwnedOp) : Prop :=
  document o.owner.docId ≠ document second.docId ∨
    o.owner = first ∧ (o.op = .get ∨ document second.docId = none)

lemma of_unseen {o : OwnedOp} {choice : Outcome} {s t : Collection D} {r : Except String o.op.Res}
    (h : Unseen document first second o) (he : o.exec document choice s = some (r, t)) :
    t.of document second = s.of document second := by
  rw [Collection.of, Collection.of, clock_of_exec he]
  congr 1
  cases hp : document second.docId with
  | none => rfl
  | some path =>
    rw [Unseen, hp] at h
    rcases h with hne | ⟨-, hop | hnone⟩
    · exact docs_of_ne he hne
    · rw [docs_of_get he hop]
    · contradiction

lemma unseen_of_first {o : OwnedOp} (h : ¬ (userIdSchema first.userId = true ∧ Shared document first second))
    (howner : o.owner = first) (hchecked : Checked o) : Unseen document first second o := by
  by_cases hdoc : document o.owner.docId = document second.docId
  · refine .inr ⟨howner, ?_⟩
    rcases hchecked with huser | hget
    · cases hp : document second.docId with
      | none => exact .inr rfl
      | some path => exact absurd ⟨howner ▸ huser, path, howner ▸ hdoc.trans hp, hp⟩ h
    · exact .inl hget
  · exact .inl hdoc

lemma collection_purges (h : ¬ (userIdSchema first.userId = true ∧ Shared document first second)) :
    Purges (S := keyCollection document) (isSeen document first second) (Unseen document first second)
      (fun s t => s.of document second = t.of document second) where
  body {r} hr := by
    have huses : ((keyCollection document).body r).Uses fun o => o.owner = r.owner ∧ Checked o := uses_body hr
    by_cases howner : r.owner = first
    · exact .inr (huses.mono fun o ho => unseen_of_first h (ho.1.trans howner) ho.2)
    · by_cases hdoc : document r.owner.docId = document second.docId
      · exact .inl (huses.mono fun o ho => decide_eq_true ⟨ho.1 ▸ hdoc, ho.1 ▸ howner⟩)
      · exact .inr (huses.mono fun o ho => .inl (ho.1 ▸ hdoc))
  forks _ _ := rfl
  disjoint {o} ho := by
    refine decide_eq_false fun hseen => ?_
    obtain ⟨hdoc, hne⟩ := hseen
    rcases ho with hother | ⟨hfirst, -⟩
    · exact hother hdoc
    · exact hne hfirst
  act {o choice s s' t r} ho hsame he := by
    obtain ⟨hdoc, -⟩ := of_decide_eq_true ho
    obtain ⟨hclock, hview⟩ := DocState.mk.inj hsame
    cases hp : document o.owner.docId with
    | none =>
      refine ⟨s', exec_refused_congr hp hclock.symm he, ?_⟩
      rw [exec_refused hp he]
      exact hsame
    | some path =>
      rw [← hdoc, hp] at hview
      obtain ⟨d, hd, rfl⟩ := (exec_eq_some_iff hp).mp he
      have hview : s.docs path = s'.docs path := hview
      rw [hclock, hview] at hd
      refine ⟨_, (exec_eq_some_iff hp).mpr ⟨d, hd, rfl⟩, ?_⟩
      simp only [Collection.of, hclock, ← hdoc, hp, Option.bind_some, Function.update_self]
  drop {o choice s s' t r} ho hsame he := (of_unseen ho he).trans hsame
  env {n s s' t} hsame he := by
    obtain rfl := Option.some.inj he
    obtain ⟨hclock, hdoc⟩ := DocState.mk.inj hsame
    refine ⟨_, rfl, ?_⟩
    simp only [Collection.of, hclock, hdoc]

lemma isolated_of_unshared (hne : first ≠ second)
    (h : ¬ (userIdSchema first.userId = true ∧ Shared document first second)) : Isolated document first second := by
  intro s c hc
  refine ⟨fun a d ha hfirst => ?_, ?_⟩
  · obtain ⟨-, he⟩ := ha.exec
    have hchecked : Checked a.op :=
      ha.uses (S := keyCollection document) (P := Checked) (fun r hr => (uses_body hr).mono fun o ho => ho.2)
        (fun _ _ => rfl) hc
    exact of_unseen (unseen_of_first h hfirst hchecked) he
  · obtain ⟨d, hd, hsame, hlog⟩ := (collection_purges h).run (s := s) rfl hc
    refine ⟨d, hd, fun e he => ?_, ?_, hsame.symm⟩
    · rw [hlog, List.mem_filter] at he
      cases e with
      | act a => exact decide_eq_false (of_decide_eq_true he.2).2
      | env n => rfl
    · rw [hlog, List.filter_filter]
      refine List.filter_congr fun e _ => ?_
      cases e with
      | env n => rfl
      | act a =>
        have hseen (ho : a.op.owner = second) : isSeen document first second a.op = true :=
          decide_eq_true ⟨congrArg (fun owner : Owner => document owner.docId) ho, ho ▸ Ne.symm hne⟩
        by_cases ho : a.op.owner = second <;> simp [isOf, isKept, ho, hseen]

/-- Shredding the key of one owner leaves a shredded document to the other. -/
lemma not_isolated (huser : userIdSchema first.userId = true) (h : Shared document first second) :
    ¬ Isolated document first second := by
  intro hisolated
  obtain ⟨path, hfirst, hsecond⟩ := h
  let s : Collection D := ⟨0, fun _ => none⟩
  let r : OwnedRequest := ⟨first, .job (.shredKeyForUser none)⟩
  have haccepted : r.accepted = true := (Bool.or_eq_true _ _).mpr (.inr huser)
  have hstart := @Step.start (keyCollection document) free (initial s) r haccepted
  have hexec : OwnedOp.exec document ⟨first, .write (.shred none)⟩ .done s = some (.ok (), _) :=
    (exec_eq_some_iff hfirst).mpr ⟨_, rfl, rfl⟩
  have hact := @Step.act (keyCollection document) free ⟨s, [(keyCollection document).body r], []⟩ 0
    ⟨first, .write (.shred none)⟩ _ .done _ _ rfl hexec trivial
  have hview := (hisolated s _ (.single hstart)).1 _ _ ⟨hact, rfl⟩ rfl
  have hdoc := (DocState.mk.inj hview).2
  simp only [hsecond, Option.bind_some, Function.update_self] at hdoc
  cases hdoc

/-- Whatever documents the store has for the ids, two owners are apart unless their ids name one that
the first can write. -/
theorem isolated_iff (document : String → Option D) (hne : first ≠ second) :
    Isolated document first second ↔ ¬ (userIdSchema first.userId = true ∧ Shared document first second) := by
  constructor
  · exact fun h hshared => not_isolated hshared.1 hshared.2 h
  · exact isolated_of_unshared hne

theorem isolated_users : Isolated documentPath ⟨"acme", "u1"⟩ ⟨"globex", "u1"⟩ :=
  (isolated_iff documentPath (by decide)).mpr fun hshared => by
    obtain ⟨-, path, hfirst, hsecond⟩ := hshared
    have hdistinct : documentPath (Owner.docId ⟨"acme", "u1"⟩) ≠ documentPath (Owner.docId ⟨"globex", "u1"⟩) := by
      decide +kernel
    exact hdistinct (hfirst.trans hsecond.symm)

theorem tenant_shreds_anothers_key : ¬ ∀ first second : Owner, first ≠ second → Isolated documentPath first second := by
  intro h
  have hpath : documentPath (Owner.docId ⟨"acme", "team:u1"⟩) = some ["acme:team:u1"] := by decide +kernel
  exact @not_isolated _ _ documentPath ⟨"acme:team", "u1"⟩ ⟨"acme", "team:u1"⟩ (by decide +kernel)
    (shared_of_overlaps ⟨"team", rfl, rfl⟩ hpath) (h _ _ (by decide))

example : Shared documentPath ⟨"/acme", "u1"⟩ ⟨"acme", "u1"⟩ := ⟨["acme:u1"], by decide +kernel⟩

end Isolation

end ChameleonVault.KeyRegistry
