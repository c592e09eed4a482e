import ChameleonVault.SigningKeys.Listings

/-! What happened between the beginning of a listing and the moment its answer is stored. -/

namespace ChameleonVault.SigningKeys

open Concurrency Interleaving Discipline

variable {Job : Type} {exec : (op : SigningOp) → Outcome → State → Option (Except String op.Res × State)}
  {call : Job → SigningCall Unit} {keyPath name : String} {s s' : State} {t : ℕ}
  {log : (callers Job exec call).Log} {a : (callers Job exec call).Action} {e : (callers Job exec call).Entry}

section Moments

def beginsList (t : ℕ) : (callers Job exec call).Entry → Bool
  | .act ⟨t', .kms .beginList, _, .ok _⟩ => decide (t' = t)
  | _ => false

def enables (keyPath : String) : (callers Job exec call).Entry → Option String
  | .env (.generation number .enabled) => some (versionName keyPath number)
  | _ => none

def invalidates : (callers Job exec call).Entry → Option String
  | .act ⟨_, .memory (.invalidate newVersion), _, _⟩ => some newVersion
  | _ => none

def signerStorer : (callers Job exec call).Entry → Option ℕ
  | .act ⟨t, .memory (.setCurrentVersion .signer _), _, _⟩ => some t
  | _ => none

def listStorer : (callers Job exec call).Entry → Option ℕ
  | .act ⟨t, .memory (.setEnabledVersions _), _, _⟩ => some t
  | _ => none

def enabled (keyPath : String) (log : (callers Job exec call).Log) : List String := log.filterMap (enables keyPath)

def invalidated (log : (callers Job exec call).Log) : List String := log.filterMap invalidates

/-- What happened since a caller last began a listing. -/
def sinceListing (t : ℕ) (log : (callers Job exec call).Log) : (callers Job exec call).Log := recent (beginsList t) log

/-- What happened since the listing began that the cached list is from. -/
def sinceCachedList (log : (callers Job exec call).Log) : (callers Job exec call).Log :=
  window (fun e log => (listStorer e).map (sinceListing · log)) log

/-- What happened since the listing began that the version cached by the signer is from. -/
def sinceCachedVersion (log : (callers Job exec call).Log) : (callers Job exec call).Log :=
  window (fun e log => (signerStorer e).map (sinceListing · log)) log

lemma sinceCachedList_now (h : listStorer e = some t) : sinceCachedList (e :: log) = e :: sinceListing t log :=
  window_opened (congrArg _ h)

lemma sinceCachedList_kept (h : listStorer e = none) : sinceCachedList (e :: log) = e :: sinceCachedList log :=
  window_kept (congrArg _ h)

lemma sinceCachedVersion_now (h : signerStorer e = some t) : sinceCachedVersion (e :: log) = e :: sinceListing t log :=
  window_opened (congrArg _ h)

lemma sinceCachedVersion_kept (h : signerStorer e = none) : sinceCachedVersion (e :: log) = e :: sinceCachedVersion log :=
  window_kept (congrArg _ h)

lemma eq_of_beginsList (h : beginsList t (.act a) = true) :
    ∃ choice names, a = ⟨t, .kms .beginList, choice, .ok names⟩ := by
  obtain ⟨t', op, choice, r⟩ := a
  cases op with
  | kms op =>
    cases op with
    | beginList =>
      cases r with
      | ok names =>
        obtain rfl := of_decide_eq_true h
        exact ⟨choice, names, rfl⟩
      | error e => cases h
    | _ => cases h
  | _ => cases h

lemma eq_of_invalidates (h : invalidates (.act a) = some name) : a.op = .memory (.invalidate name) := by
  obtain ⟨t, op, choice, reply⟩ := a
  cases op with
  | memory op =>
    cases op with
    | invalidate newVersion =>
      obtain rfl := Option.some.inj h
      rfl
    | _ => cases h
  | _ => cases h

lemma invalidates_eq (h : a.op = .memory (.invalidate name)) : invalidates (.act a) = some name := by
  obtain ⟨t, op, choice, reply⟩ := a
  obtain rfl := h
  rfl

lemma signerStorer_eq (h : a.op = .memory (.setCurrentVersion .signer name)) : signerStorer (.act a) = some a.tid := by
  obtain ⟨t, op, choice, reply⟩ := a
  obtain rfl := h
  rfl

lemma signerStorer_none (h : ∀ value, a.op ≠ .memory (.setCurrentVersion .signer value)) :
    signerStorer (.act a) = none := by
  obtain ⟨t, op, choice, reply⟩ := a
  cases op with
  | memory op =>
    cases op with
    | setCurrentVersion holder value =>
      cases holder with
      | service => rfl
      | signer => exact absurd rfl (h value)
    | _ => rfl
  | _ => rfl

lemma signerStorer_tid (h : signerStorer (.act a) = some t) : a.tid = t := by
  simp only [signerStorer] at h
  split at h
  · rename_i heq
    cases heq
    exact Option.some.inj h
  · cases h

lemma listStorer_eq {versions : List String} (h : a.op = .memory (.setEnabledVersions versions)) :
    listStorer (.act a) = some a.tid := by
  obtain ⟨t, op, choice, reply⟩ := a
  obtain rfl := h
  rfl

lemma listStorer_none (h : ∀ versions, a.op ≠ .memory (.setEnabledVersions versions)) : listStorer (.act a) = none := by
  obtain ⟨t, op, choice, reply⟩ := a
  cases op with
  | memory op =>
    cases op with
    | setEnabledVersions versions => exact absurd rfl (h versions)
    | _ => rfl
  | _ => rfl

lemma enabled_act (a : (callers Job exec call).Action) (log : (callers Job exec call).Log) :
    enabled keyPath (.act a :: log) = enabled keyPath log := rfl

lemma enabledNames_of_env {e : Environment} (he : e.exec s = some s') (hname : name ∈ enabledNames keyPath s'.versions) :
    name ∈ enabledNames keyPath s.versions ∨
      enables keyPath (.env e : (callers Job exec call).Entry) = some name := by
  cases e with
  | tick ms =>
    obtain rfl := Option.some.inj he
    exact .inl hname
  | generation number state =>
    obtain rfl := Option.some.inj he
    rcases of_enabledNames_generate hname with hname | ⟨rfl, rfl⟩
    · exact .inl hname
    · exact .inr rfl

end Moments

section Listings

/-- A listing has all that is enabled, but for what has become so since it began. -/
def Complete (keyPath : String) (s : State) (log : (callers Job exec call).Log) (t : ℕ) : Prop :=
  ∀ name ∈ enabledNames keyPath s.versions,
    name ∈ enabled keyPath (sinceListing t log) ∨ Covers [name] (knowledge.known t log)

lemma complete_started (t : ℕ) : Complete keyPath s ([] : (callers Job exec call).Log) t :=
  fun _ _ => .inr ⟨nofun, nofun⟩

lemma Complete.act (h : Complete keyPath s log t) (hallowed : knowledge.allowed (knowledge.known a.tid log) a.op)
    (he : a.op.exec keyPath a.choice s = some (a.reply, s')) : Complete keyPath s' (.act a :: log) t := by
  intro name hname
  rw [enabledNames_exec he] at hname
  cases hb : beginsList t (.act a) with
  | true =>
    obtain ⟨choice, names, rfl⟩ := eq_of_beginsList hb
    obtain ⟨versions, he, -⟩ := exec_kms he
    obtain rfl := exec_beginList he
    have hknown := known_act_self (D := knowledge)
      (⟨t, .kms .beginList, choice, .ok (enabledNames keyPath s.versions)⟩ : (callers Job exec call).Action) log
    rw [hknown]
    refine .inr ⟨fun names hseen => ?_, nofun⟩
    obtain rfl := Option.some.inj hseen
    exact List.cons_subset.mpr ⟨hname, List.nil_subset _⟩
  | false =>
    rw [sinceListing, recent_other hb, enabled_act]
    refine (h name hname).imp id fun hcovers => ?_
    by_cases ht : a.tid = t
    · subst ht
      exact hcovers.next (List.cons_subset.mpr ⟨hname, List.nil_subset _⟩) hallowed (learns_act log he)
    · rwa [known_act_ne ht]

lemma Complete.env {e : Environment} (h : Complete keyPath s log t) (he : e.exec s = some s') :
    Complete keyPath s' (.env e :: log) t := by
  intro name hname
  rw [sinceListing, recent_other rfl, enabled, mem_filterMap_cons]
  rcases enabledNames_of_env he hname with hname | hnow
  · exact (h name hname).imp .inr id
  · exact .inl (.inl hnow)

/-- What is stored of a listing has all that is enabled, but for what has become so since it began. -/
lemma Complete.listed {names : List String} (h : Complete keyPath s log t) (hl : (knowledge.known t log).listed = some names)
    (hname : name ∈ enabledNames keyPath s.versions) :
    name ∈ enabled keyPath (sinceListing t log) ∨ name ∈ names :=
  (h name hname).imp id fun hcovers => hcovers.listed names hl (List.mem_singleton_self name)

/-- A version is the newest of those that were enabled when something began. -/
structure NewestSince (keyPath : String) (s : State) (since : (callers Job exec call).Log) (version : String) : Prop where
  enabled : version ∈ enabledNames keyPath s.versions
  newest : ∀ name ∈ enabledNames keyPath s.versions, name ∈ SigningKeys.enabled keyPath since ∨ atLeast version name = true

variable {since since' : (callers Job exec call).Log} {v w : String}

lemma NewestSince.act (h : NewestSince keyPath s since v) (he : a.op.exec keyPath a.choice s = some (a.reply, s')) :
    NewestSince keyPath s' (.act a :: since) v := by
  refine ⟨?_, ?_⟩
  · rw [enabledNames_exec he]
    exact h.enabled
  · rw [enabledNames_exec he]
    exact h.newest

lemma NewestSince.env {e : Environment} (h : NewestSince keyPath s since v) (he : e.exec s = some s') :
    NewestSince keyPath s' (.env e :: since) v where
  enabled := enabledNames_env he h.enabled
  newest name hname := by
    rw [SigningKeys.enabled, mem_filterMap_cons]
    rcases enabledNames_of_env he hname with hname | hnow
    · exact (h.newest name hname).imp .inr id
    · exact .inl (.inl hnow)

/-- What is taken of a listing is the newest of all that were enabled when it began. -/
lemma newestSince_listed {names : List String} (hl : Learnt keyPath s (knowledge.known t log)) (hc : Complete keyPath s log t)
    (hnames : (knowledge.known t log).listed = some names) (hv : newest names = some v) :
    NewestSince keyPath s (sinceListing t log) v where
  enabled := hl.listed names hnames (newest_mem hv)
  newest _ hname := (hc.listed hnames hname).imp id
    (newest_atLeast (numbered_of_enabled (hl.listed names hnames)) hv)

/-- Two lookups come to one version when none has become enabled since either of them began. -/
lemma NewestSince.unique (hv : NewestSince keyPath s since v) (hw : NewestSince keyPath s since' w)
    (hsince : SigningKeys.enabled keyPath since = []) (hsince' : SigningKeys.enabled keyPath since' = []) : v = w := by
  have hvw : atLeast v w = true := (hv.newest w hw.enabled).resolve_left (by simp [hsince])
  have hwv : atLeast w v = true := (hw.newest v hv.enabled).resolve_left (by simp [hsince'])
  obtain ⟨m, n, hm, hn, hle⟩ := atLeast_iff.mp hvw
  obtain ⟨n', m', hn', hm', hle'⟩ := atLeast_iff.mp hwv
  obtain ⟨x, -, -, rfl⟩ := mem_enabledNames.mp hv.enabled
  obtain ⟨y, -, -, rfl⟩ := mem_enabledNames.mp hw.enabled
  rw [versionNumber_versionName] at hm hn hn' hm'
  obtain rfl := Option.some.inj hm
  obtain rfl := Option.some.inj hn
  obtain rfl := Option.some.inj hn'
  obtain rfl := Option.some.inj hm'
  rw [Nat.le_antisymm hle' hle]

end Listings

end ChameleonVault.SigningKeys
