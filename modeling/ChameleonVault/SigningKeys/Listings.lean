import ChameleonVault.Concurrency.Since
import ChameleonVault.SigningKeys.Knowledge

/-! What KMS answers, and what a caller may hold of it: a listing has everything that was
enabled when its caller began. -/

namespace ChameleonVault.SigningKeys

open Concurrency Interleaving Discipline

section Versions

variable {keyPath name : String} {versions versions' : List CryptoKeyVersion} {s s' : State} {choice : Outcome}

lemma mem_enabledNames : name ∈ enabledNames keyPath versions ↔
    ∃ v ∈ versions, v.state = .enabled ∧ versionName keyPath v.number = name := by
  simp [enabledNames, and_assoc]

lemma enabledNames_create {number : ℕ} (h : create number versions = some versions') :
    enabledNames keyPath versions' = enabledNames keyPath versions := by
  simp only [create, Option.ite_none_right_eq_some, Option.some.injEq] at h
  obtain ⟨-, rfl⟩ := h
  simp [enabledNames]

lemma enabledNames_generate (number : ℕ) (state : VersionState) :
    enabledNames keyPath versions ⊆ enabledNames keyPath (generate number state versions) := by
  intro name hn
  obtain ⟨v, hv, hs, hname⟩ := mem_enabledNames.mp hn
  refine mem_enabledNames.mpr ⟨v, List.mem_map.mpr ⟨v, hv, if_neg ?_⟩, hs, hname⟩
  rintro ⟨-, hpending⟩
  rw [hs] at hpending
  contradiction

lemma numbered_of_enabled {names : List String} (h : names ⊆ enabledNames keyPath versions) :
    ∀ name ∈ names, (versionNumber name).isSome = true := by
  intro name hn
  obtain ⟨v, -, -, rfl⟩ := mem_enabledNames.mp (h hn)
  rw [versionNumber_versionName]
  rfl

lemma exec_memory {op : MemoryOp} {r : Except String op.Res}
    (h : (SigningOp.memory op).exec keyPath choice s = some (r, s')) :
    r = .ok (op.run s.clock s.caches).1 ∧ s' = { s with caches := (op.run s.clock s.caches).2 } := by
  cases choice with
  | done =>
    obtain ⟨rfl, rfl⟩ := Prod.mk.inj (Option.some.inj h)
    exact ⟨rfl, rfl⟩
  | _ => cases h

lemma exec_kms {op : KmsOp} {r : Except String op.Res} (h : (SigningOp.kms op).exec keyPath choice s = some (r, s')) :
    ∃ versions, op.exec keyPath choice s.versions = some (r, versions) ∧ s' = { s with versions } := by
  obtain ⟨⟨r', versions⟩, he, heq⟩ := Option.map_eq_some_iff.mp h
  obtain ⟨rfl, rfl⟩ := Prod.mk.inj heq
  exact ⟨versions, he, rfl⟩

lemma exec_wake {time : ℕ} {r : Except String Unit} (h : (SigningOp.wake time).exec keyPath choice s = some (r, s')) :
    s' = s := by
  cases choice with
  | done =>
    obtain ⟨-, h⟩ := Option.ite_none_right_eq_some.mp h
    exact (Prod.mk.inj (Option.some.inj h)).2.symm
  | _ => cases h

lemma exec_answer {a : Answer} {r : Except String Unit} (h : (SigningOp.answer a).exec keyPath choice s = some (r, s')) :
    s' = s := by
  cases choice with
  | done => exact (Prod.mk.inj (Option.some.inj h)).2.symm
  | _ => cases h

lemma versions_of_exec {op : KmsOp} {r : Except String op.Res} (h : op.exec keyPath choice versions = some (r, versions'))
    (hop : op ≠ .createCryptoKeyVersion) : versions' = versions := by
  have hsame {r r' : Except String op.Res} (h : some (r', versions) = some (r, versions')) : versions' = versions :=
    (Prod.mk.inj (Option.some.inj h)).2.symm
  cases op with
  | createCryptoKeyVersion => exact absurd rfl hop
  | endList seen =>
    cases choice with
    | listed names => exact hsame (Option.ite_none_right_eq_some.mp h).2
    | fail created => cases created with
      | none => exact hsame h
      | some number => cases h
    | _ => cases h
  | getCryptoKeyVersion name =>
    cases choice with
    | done =>
      simp only [KmsOp.exec] at h
      split at h
      · exact hsame h
      · exact hsame h
    | fail created => cases created with
      | none => exact hsame h
      | some number => cases h
    | _ => cases h
  | _ =>
    cases choice with
    | fail created => cases created with
      | none => exact hsame h
      | some number => cases h
    | _ => first | exact hsame h | cases h

lemma exec_beginList {names : List String}
    (h : KmsOp.beginList.exec keyPath choice versions = some (.ok names, versions')) :
    names = enabledNames keyPath versions := by
  cases choice with
  | done => exact (Except.ok.inj (Prod.mk.inj (Option.some.inj h)).1).symm
  | fail created => cases created <;> cases h
  | _ => cases h

lemma exec_endList {seen names : List String}
    (h : (KmsOp.endList seen).exec keyPath choice versions = some (.ok names, versions')) :
    seen ⊆ names ∧ names ⊆ enabledNames keyPath versions := by
  cases choice with
  | listed listed =>
    obtain ⟨hlisted, h⟩ := Option.ite_none_right_eq_some.mp h
    obtain rfl := Except.ok.inj (Prod.mk.inj (Option.some.inj h)).1
    exact hlisted
  | fail created => cases created <;> cases h
  | _ => cases h

lemma exec_getCryptoKeyVersion
    (h : (KmsOp.getCryptoKeyVersion name).exec keyPath choice versions = some (.ok .enabled, versions')) :
    name ∈ enabledNames keyPath versions := by
  cases choice with
  | done =>
    simp only [KmsOp.exec] at h
    split at h
    · rename_i v hv
      have hname := List.find?_some hv
      have hstate : v.state = .enabled := Except.ok.inj (Prod.mk.inj (Option.some.inj h)).1
      exact mem_enabledNames.mpr ⟨v, List.mem_of_find?_eq_some hv, hstate, of_decide_eq_true hname⟩
    · cases h
  | fail created => cases created <;> cases h
  | _ => cases h

lemma exec_createCryptoKeyVersion {r : Except String String}
    (h : KmsOp.createCryptoKeyVersion.exec keyPath choice versions = some (r, versions')) :
    versions' = versions ∨ ∃ number, create number versions = some versions' := by
  cases choice with
  | created number =>
    obtain ⟨versions'', hc, h⟩ := Option.map_eq_some_iff.mp h
    obtain ⟨-, rfl⟩ := Prod.mk.inj h
    exact .inr ⟨number, hc⟩
  | fail created =>
    cases created with
    | none => exact .inl (Prod.mk.inj (Option.some.inj h)).2.symm
    | some number =>
      obtain ⟨versions'', hc, h⟩ := Option.map_eq_some_iff.mp h
      obtain ⟨-, rfl⟩ := Prod.mk.inj h
      exact .inr ⟨number, hc⟩
  | _ => cases h

lemma enabledNames_kms {op : KmsOp} {r : Except String op.Res} (h : op.exec keyPath choice versions = some (r, versions')) :
    enabledNames keyPath versions' = enabledNames keyPath versions := by
  cases op with
  | createCryptoKeyVersion =>
    rcases exec_createCryptoKeyVersion h with rfl | ⟨number, hc⟩
    · rfl
    · exact enabledNames_create hc
  | _ => rw [versions_of_exec h nofun]

/-- Only KMS itself enables a version, when it has generated it. -/
lemma enabledNames_exec {op : SigningOp} {r : Except String op.Res} (h : op.exec keyPath choice s = some (r, s')) :
    enabledNames keyPath s'.versions = enabledNames keyPath s.versions := by
  cases op with
  | memory op =>
    obtain ⟨-, rfl⟩ := exec_memory h
    rfl
  | kms op =>
    obtain ⟨versions, he, rfl⟩ := exec_kms h
    exact enabledNames_kms he
  | wake time => rw [exec_wake h]
  | answer a => rw [exec_answer h]

lemma of_enabledNames_generate {number : ℕ} {state : VersionState}
    (h : name ∈ enabledNames keyPath (generate number state versions)) :
    name ∈ enabledNames keyPath versions ∨ state = .enabled ∧ versionName keyPath number = name := by
  obtain ⟨v, hv, hs, hname⟩ := mem_enabledNames.mp h
  obtain ⟨w, hw, rfl⟩ := List.mem_map.mp hv
  split at hs
  · rename_i hgenerated
    simp only [hgenerated, and_self, if_true] at hname
    exact .inr ⟨hs, hgenerated.1 ▸ hname⟩
  · rename_i hkept
    rw [if_neg hkept] at hname
    exact .inl (mem_enabledNames.mpr ⟨w, hw, hs, hname⟩)

lemma enabledNames_env {e : Environment} (h : e.exec s = some s') :
    enabledNames keyPath s.versions ⊆ enabledNames keyPath s'.versions := by
  cases e with
  | tick ms =>
    obtain rfl := Option.some.inj h
    exact List.Subset.refl _
  | generation number state =>
    obtain rfl := Option.some.inj h
    exact enabledNames_generate number state

end Versions

section Listings

variable {keyPath : String} {s s' : State} {op : SigningOp} {choice : Outcome} {r : Except String op.Res} {q : Knowledge}

/-- What a caller makes of one reply. Looking into a cache it begins anew; then it may begin a
listing, and end it. -/
inductive Learns (keyPath : String) (s : State) (q : Knowledge) : SigningOp → Knowledge → Prop
  | looksService : Learns keyPath s q (.memory (.currentVersion .service)) { q with seen := none, listed := none }
  | looksSigner : Learns keyPath s q (.memory (.currentVersion .signer))
      { q with seen := none, listed := none, signer := live s.clock (s.caches.currentVersion .signer) }
  | looksList : Learns keyPath s q (.memory .enabledVersions)
      { q with seen := none, listed := none, versions := live s.clock s.caches.enabledVersions }
  | storesVersion (value : String) :
      Learns keyPath s q (.memory (.setCurrentVersion .signer value)) { q with signer := some value }
  | storesList (versions : List String) :
      Learns keyPath s q (.memory (.setEnabledVersions versions)) { q with versions := some versions }
  | invalidates (newVersion : String) :
      Learns keyPath s q (.memory (.invalidate newVersion)) { q with invalidated := some newVersion }
  | beginsList : Learns keyPath s q (.kms .beginList)
      { q with seen := some (enabledNames keyPath s.versions), listed := none }
  | endsList (seen names : List String) : seen ⊆ names → names ⊆ enabledNames keyPath s.versions →
      Learns keyPath s q (.kms (.endList seen)) { q with listed := some names }
  | seesEnabled (name : String) : name ∈ enabledNames keyPath s.versions →
      Learns keyPath s q (.kms (.getCryptoKeyVersion name)) { q with ready := some name }
  | nothing (op : SigningOp) : op ≠ .memory (.currentVersion .signer) → op ≠ .memory .enabledVersions →
      Learns keyPath s q op q

lemma learns (h : op.exec keyPath choice s = some (r, s')) (q : Knowledge) :
    Learns keyPath s q op (knowledge.next q op r) := by
  cases op with
  | memory op =>
    obtain ⟨rfl, -⟩ := exec_memory h
    cases op with
    | currentVersion holder =>
      cases holder with
      | service => exact .looksService
      | signer => exact .looksSigner
    | setCurrentVersion holder value =>
      cases holder with
      | service => exact .nothing _ nofun nofun
      | signer => exact .storesVersion value
    | enabledVersions => exact .looksList
    | setEnabledVersions versions => exact .storesList versions
    | invalidate newVersion => exact .invalidates newVersion
    | _ => exact .nothing _ nofun nofun
  | kms op =>
    obtain ⟨versions, he, -⟩ := exec_kms h
    cases r with
    | error e => cases op <;> exact .nothing _ nofun nofun
    | ok value =>
      cases op with
      | beginList =>
        obtain rfl := exec_beginList he
        exact .beginsList
      | endList seen =>
        obtain ⟨hseen, hnames⟩ := exec_endList he
        exact .endsList seen value hseen hnames
      | getCryptoKeyVersion name =>
        cases value with
        | enabled => exact .seesEnabled name (exec_getCryptoKeyVersion he)
        | _ => exact .nothing _ nofun nofun
      | _ => exact .nothing _ nofun nofun
  | wake time => exact .nothing _ nofun nofun
  | answer a => exact .nothing _ nofun nofun

structure Learnt (keyPath : String) (s : State) (q : Knowledge) : Prop where
  listed : ∀ names, q.listed = some names → names ⊆ enabledNames keyPath s.versions
  ready : ∀ name, q.ready = some name → name ∈ enabledNames keyPath s.versions

lemma Learnt.mono (h : Learnt keyPath s q) (hs : enabledNames keyPath s.versions ⊆ enabledNames keyPath s'.versions) :
    Learnt keyPath s' q :=
  ⟨fun names hq => List.Subset.trans (h.listed names hq) hs, fun name hq => hs (h.ready name hq)⟩

lemma Learnt.next {q' : Knowledge} (h : Learnt keyPath s q) (hl : Learns keyPath s q op q') : Learnt keyPath s q' := by
  cases hl with
  | beginsList => exact ⟨nofun, h.ready⟩
  | endsList seen names _ hnames =>
    refine ⟨fun names' hq => ?_, h.ready⟩
    obtain rfl := Option.some.inj hq
    exact hnames
  | seesEnabled name hname =>
    refine ⟨h.listed, fun name' hq => ?_⟩
    obtain rfl := Option.some.inj hq
    exact hname
  | looksService => exact ⟨nofun, h.ready⟩
  | looksSigner => exact ⟨nofun, h.ready⟩
  | looksList => exact ⟨nofun, h.ready⟩
  | _ => exact ⟨h.listed, h.ready⟩

/-- A listing has all that was enabled when its caller last looked into the cache. -/
structure Covers (known : List String) (q : Knowledge) : Prop where
  seen : ∀ names, q.seen = some names → known ⊆ names
  listed : ∀ names, q.listed = some names → known ⊆ names

lemma Covers.next {known : List String} {q' : Knowledge} (h : Covers known q)
    (hknown : known ⊆ enabledNames keyPath s.versions) (hallowed : knowledge.allowed q op)
    (hl : Learns keyPath s q op q') : Covers known q' := by
  cases hl with
  | beginsList =>
    refine ⟨fun names hq => ?_, nofun⟩
    obtain rfl := Option.some.inj hq
    exact hknown
  | endsList seen names hseen _ =>
    refine ⟨h.seen, fun names' hq => ?_⟩
    obtain rfl := Option.some.inj hq
    exact List.Subset.trans (h.seen seen hallowed) hseen
  | looksService => exact ⟨nofun, nofun⟩
  | looksSigner => exact ⟨nofun, nofun⟩
  | looksList => exact ⟨nofun, nofun⟩
  | _ => exact ⟨h.seen, h.listed⟩

lemma Covers.looks {known : List String} {q' : Knowledge} {m : MemoryOp} (hl : Learns keyPath s q (.memory m) q')
    (hm : m = .currentVersion .signer ∨ m = .enabledVersions) : Covers known q' := by
  rcases hm with rfl | rfl
  · cases hl with
    | looksSigner => exact ⟨nofun, nofun⟩
    | nothing _ hne _ => exact absurd rfl hne
  · cases hl with
    | looksList => exact ⟨nofun, nofun⟩
    | nothing _ _ hne => exact absurd rfl hne

lemma signer_of_learns {v : String} {q' : Knowledge} (hl : Learns keyPath s q op q') (h : q'.signer = some v) :
    (q.signer = some v ∧ op ≠ .memory (.currentVersion .signer)) ∨ op = .memory (.setCurrentVersion .signer v) ∨
      (op = .memory (.currentVersion .signer) ∧ live s.clock (s.caches.currentVersion .signer) = some v) := by
  cases hl with
  | looksSigner => exact .inr (.inr ⟨rfl, h⟩)
  | storesVersion value =>
    obtain rfl := Option.some.inj h
    exact .inr (.inl rfl)
  | nothing _ hne _ => exact .inl ⟨h, hne⟩
  | _ => exact .inl ⟨h, nofun⟩

lemma versions_of_learns {versions : List String} {q' : Knowledge} (hl : Learns keyPath s q op q')
    (h : q'.versions = some versions) :
    (q.versions = some versions ∧ op ≠ .memory .enabledVersions) ∨ op = .memory (.setEnabledVersions versions) ∨
      (op = .memory .enabledVersions ∧ live s.clock s.caches.enabledVersions = some versions) := by
  cases hl with
  | looksList => exact .inr (.inr ⟨rfl, h⟩)
  | storesList value =>
    obtain rfl := Option.some.inj h
    exact .inr (.inl rfl)
  | nothing _ _ hne => exact .inl ⟨h, hne⟩
  | _ => exact .inl ⟨h, nofun⟩

lemma invalidated_of_learns {n : String} {q' : Knowledge} (hl : Learns keyPath s q op q') (h : q'.invalidated = some n) :
    q.invalidated = some n ∨ op = .memory (.invalidate n) := by
  cases hl with
  | invalidates newVersion =>
    obtain rfl := Option.some.inj h
    exact .inr rfl
  | _ => exact .inl h

end Listings

section Lookups

variable {Job : Type} {exec : (op : SigningOp) → Outcome → State → Option (Except String op.Res × State)}
  {call : Job → SigningCall Unit} {keyPath : String} {s s' : State} {log : (callers Job exec call).Log} {a : (callers Job exec call).Action} {t : ℕ}
  {q : Knowledge} {isLookup : MemoryOp → Bool}

def looksUp (isLookup : MemoryOp → Bool) (t : ℕ) : (callers Job exec call).Entry → Bool
  | .act ⟨t', .memory op, _, _⟩ => decide (t' = t) && isLookup op
  | _ => false

def isSignerLookup : MemoryOp → Bool
  | .currentVersion .signer => true
  | _ => false

def isListLookup : MemoryOp → Bool
  | .enabledVersions => true
  | _ => false

lemma looksUp_act : looksUp isLookup t (.act a) = true ↔ a.tid = t ∧ ∃ op, a.op = .memory op ∧ isLookup op = true := by
  obtain ⟨t', op, choice, reply⟩ := a
  cases op <;> simp [looksUp]

lemma isSignerLookup_iff {op : MemoryOp} : isSignerLookup op = true ↔ op = .currentVersion .signer := by
  cases op with
  | currentVersion holder => cases holder <;> simp [isSignerLookup]
  | _ => simp [isSignerLookup]

lemma isListLookup_iff {op : MemoryOp} : isListLookup op = true ↔ op = .enabledVersions := by
  cases op <;> simp [isListLookup]

lemma signerLookup_iff :
    looksUp isSignerLookup t (.act a) = true ↔ a.tid = t ∧ a.op = .memory (.currentVersion .signer) := by
  simp [looksUp_act, isSignerLookup_iff]

lemma listLookup_iff : looksUp isListLookup t (.act a) = true ↔ a.tid = t ∧ a.op = .memory .enabledVersions := by
  simp [looksUp_act, isListLookup_iff]

lemma learns_act (log : (callers Job exec call).Log) (he : a.op.exec keyPath a.choice s = some (a.reply, s')) :
    Learns keyPath s (knowledge.known a.tid log) a.op (knowledge.known a.tid (.act a :: log)) := by
  rw [known_act_self]
  exact learns he _

lemma covers_act {known : (callers Job exec call).Log → List String} (hmono : ∀ e log, known log ⊆ known (e :: log))
    (hknown : known log ⊆ enabledNames keyPath s.versions)
    (hclears : ∀ op, isLookup op = true → op = .currentVersion .signer ∨ op = .enabledVersions)
    (h : Covers (known (prior (looksUp isLookup t) log)) (knowledge.known t log))
    (hallowed : knowledge.allowed (knowledge.known a.tid log) a.op)
    (he : a.op.exec keyPath a.choice s = some (a.reply, s')) :
    Covers (known (prior (looksUp isLookup t) (.act a :: log))) (knowledge.known t (.act a :: log)) := by
  have hlearns := learns_act log he
  cases hl : looksUp isLookup t (.act a) with
  | true =>
    obtain ⟨rfl, op, hop, hlookup⟩ := looksUp_act.mp hl
    generalize knowledge.known a.tid (.act a :: log) = q' at hlearns ⊢
    rw [hop] at hlearns
    exact .looks hlearns (hclears op hlookup)
  | false =>
    rw [prior_other hl]
    by_cases ht : a.tid = t
    · subst ht
      exact h.next (List.Subset.trans (subset_of_prior hmono log) hknown) hallowed hlearns
    · rwa [known_act_ne ht]

lemma signer_act {v : String} (he : a.op.exec keyPath a.choice s = some (a.reply, s'))
    (h : (knowledge.known t (.act a :: log)).signer = some v) :
    ((knowledge.known t log).signer = some v ∧ looksUp isSignerLookup t (.act a) = false) ∨
    (a.op = .memory (.setCurrentVersion .signer v) ∧ a.tid = t ∧ looksUp isSignerLookup t (.act a) = false) ∨
    (live s.clock (s.caches.currentVersion .signer) = some v ∧ looksUp isSignerLookup t (.act a) = true) := by
  simp only [Bool.eq_false_iff, ne_eq, signerLookup_iff]
  by_cases ht : a.tid = t
  · subst ht
    rcases signer_of_learns (learns_act log he) h with ⟨hq, hne⟩ | hop | ⟨hop, hl⟩
    · exact .inl ⟨hq, fun hlookup => hne hlookup.2⟩
    · exact .inr (.inl ⟨hop, rfl, fun hlookup => nomatch hop.symm.trans hlookup.2⟩)
    · exact .inr (.inr ⟨hl, rfl, hop⟩)
  · rw [known_act_ne ht] at h
    exact .inl ⟨h, fun hlookup => ht hlookup.1⟩

lemma versions_act {versions : List String} (he : a.op.exec keyPath a.choice s = some (a.reply, s'))
    (h : (knowledge.known t (.act a :: log)).versions = some versions) :
    ((knowledge.known t log).versions = some versions ∧ looksUp isListLookup t (.act a) = false) ∨
    (a.op = .memory (.setEnabledVersions versions) ∧ a.tid = t ∧ looksUp isListLookup t (.act a) = false) ∨
    (live s.clock s.caches.enabledVersions = some versions ∧ looksUp isListLookup t (.act a) = true) := by
  simp only [Bool.eq_false_iff, ne_eq, listLookup_iff]
  by_cases ht : a.tid = t
  · subst ht
    rcases versions_of_learns (learns_act log he) h with ⟨hq, hne⟩ | hop | ⟨hop, hl⟩
    · exact .inl ⟨hq, fun hlookup => hne hlookup.2⟩
    · exact .inr (.inl ⟨hop, rfl, fun hlookup => nomatch hop.symm.trans hlookup.2⟩)
    · exact .inr (.inr ⟨hl, rfl, hop⟩)
  · rw [known_act_ne ht] at h
    exact .inl ⟨h, fun hlookup => ht hlookup.1⟩

lemma learnt_act (h : ∀ t, Learnt keyPath s (knowledge.known t log))
    (he : a.op.exec keyPath a.choice s = some (a.reply, s')) (t : ℕ) :
    Learnt keyPath s' (knowledge.known t (.act a :: log)) := by
  have hsame : enabledNames keyPath s.versions ⊆ enabledNames keyPath s'.versions := by
    rw [enabledNames_exec he]
    exact List.Subset.refl _
  by_cases ht : a.tid = t
  · subst ht
    exact ((h a.tid).next (learns_act log he)).mono hsame
  · rw [known_act_ne ht]
    exact (h t).mono hsame

end Lookups

section Stores

variable {Job : Type} {exec : (op : SigningOp) → Outcome → State → Option (Except String op.Res × State)}
  {call : Job → SigningCall Unit} {a : (callers Job exec call).Action} {v : String}

def signerStores : (callers Job exec call).Entry → Option String
  | .act ⟨_, .memory (.setCurrentVersion .signer value), _, _⟩ => some value
  | _ => none

lemma eq_of_signerStores (h : signerStores (.act a) = some v) : a.op = .memory (.setCurrentVersion .signer v) := by
  obtain ⟨t, op, choice, reply⟩ := a
  cases op with
  | memory op =>
    cases op with
    | setCurrentVersion holder value =>
      cases holder with
      | service => cases h
      | signer =>
        obtain rfl := Option.some.inj h
        rfl
    | _ => cases h
  | _ => cases h

lemma signerStores_eq (h : a.op = .memory (.setCurrentVersion .signer v)) : signerStores (.act a) = some v := by
  obtain ⟨t, op, choice, reply⟩ := a
  obtain rfl := h
  rfl

end Stores

section Caches

variable {keyPath : String} {s s' : State} {op : SigningOp} {choice : Outcome} {r : Except String op.Res}

lemma clock_of_exec (h : op.exec keyPath choice s = some (r, s')) : s'.clock = s.clock := by
  cases op with
  | memory op =>
    obtain ⟨-, rfl⟩ := exec_memory h
    rfl
  | kms op =>
    obtain ⟨versions, -, rfl⟩ := exec_kms h
    rfl
  | wake time => rw [exec_wake h]
  | answer a => rw [exec_answer h]

lemma caches_of_exec (h : op.exec keyPath choice s = some (r, s')) (hop : ∀ m, op ≠ .memory m) : s'.caches = s.caches := by
  cases op with
  | memory op => exact absurd rfl (hop op)
  | kms op =>
    obtain ⟨versions, -, rfl⟩ := exec_kms h
    rfl
  | wake time => rw [exec_wake h]
  | answer a => rw [exec_answer h]

lemma caches_of_env {e : Environment} (h : e.exec s = some s') : s'.caches = s.caches := by
  cases e <;> obtain rfl := Option.some.inj h <;> rfl

lemma signer_cached {cached : Cached String} (h : op.exec keyPath choice s = some (r, s'))
    (hc : s'.caches.currentVersion .signer = some cached) :
    (s.caches.currentVersion .signer = some cached ∧ (∀ newVersion, op ≠ .memory (.invalidate newVersion)) ∧
      ∀ value, op ≠ .memory (.setCurrentVersion .signer value)) ∨
      op = .memory (.setCurrentVersion .signer cached.value) := by
  by_cases hop : ∃ m, op = .memory m
  · obtain ⟨m, rfl⟩ := hop
    obtain ⟨-, rfl⟩ := exec_memory h
    cases m with
    | setCurrentVersion holder value =>
      cases holder with
      | service =>
        refine .inl ⟨?_, nofun, nofun⟩
        simpa [MemoryOp.run, Function.update_of_ne] using hc
      | signer =>
        have hcached : some ⟨value, s.clock + currentVersionTtlMs⟩ = some cached := by
          simpa [MemoryOp.run] using hc
        obtain rfl := Option.some.inj hcached
        exact .inr rfl
    | invalidate newVersion => cases hc
    | _ => exact .inl ⟨hc, nofun, nofun⟩
  · rw [caches_of_exec h fun m hm => hop ⟨m, hm⟩] at hc
    exact .inl ⟨hc, fun newVersion hm => hop ⟨_, hm⟩, fun value hm => hop ⟨_, hm⟩⟩

lemma live_eq_some_iff {α : Type} {now : ℕ} {cached : Option (Cached α)} {value : α} :
    live now cached = some value ↔ ∃ c, cached = some c ∧ now < c.expiresAt ∧ c.value = value := by
  cases cached with
  | none => simp [live]
  | some c => simp [live]

lemma live_mono {α : Type} {now later : ℕ} {cached : Option (Cached α)} {value : α} (hle : now ≤ later)
    (h : live later cached = some value) : live now cached = some value := by
  obtain ⟨c, hc, hlt, hv⟩ := live_eq_some_iff.mp h
  exact live_eq_some_iff.mpr ⟨c, hc, Nat.lt_of_le_of_lt hle hlt, hv⟩

lemma enabledVersions_live {versions : List String} (h : op.exec keyPath choice s = some (r, s'))
    (hl : live s'.clock s'.caches.enabledVersions = some versions) :
    (live s.clock s.caches.enabledVersions = some versions ∧ (∀ newVersion, op ≠ .memory (.invalidate newVersion)) ∧
      ∀ value, op ≠ .memory (.setEnabledVersions value)) ∨ op = .memory (.setEnabledVersions versions) := by
  rw [clock_of_exec h] at hl
  by_cases hop : ∃ m, op = .memory m
  · obtain ⟨m, rfl⟩ := hop
    obtain ⟨-, rfl⟩ := exec_memory h
    cases m with
    | setEnabledVersions value =>
      obtain ⟨c, hc, -, rfl⟩ := live_eq_some_iff.mp hl
      obtain rfl := Option.some.inj hc
      exact .inr rfl
    | invalidate newVersion => cases hl
    | _ => exact .inl ⟨hl, nofun, nofun⟩
  · rw [caches_of_exec h fun m hm => hop ⟨m, hm⟩] at hl
    exact .inl ⟨hl, fun newVersion hm => hop ⟨_, hm⟩, fun value hm => hop ⟨_, hm⟩⟩

lemma enabledVersions_env {e : Environment} {versions : List String} (he : e.exec s = some s')
    (hl : live s'.clock s'.caches.enabledVersions = some versions) : live s.clock s.caches.enabledVersions = some versions := by
  cases e with
  | tick ms =>
    obtain rfl := Option.some.inj he
    exact live_mono (Nat.le_add_right _ _) hl
  | generation number state =>
    obtain rfl := Option.some.inj he
    exact hl

end Caches

end ChameleonVault.SigningKeys
