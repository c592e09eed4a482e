import ChameleonVault.SigningKeys.Published

/-! From when on a rotation of the signing key has effect on what is signed. -/

namespace ChameleonVault.SigningKeys

open Concurrency Interleaving Discipline

variable {keyPath : String}

section Rotations

def rotates : (signing keyPath).Entry → Option String
  | .act ⟨_, .answer (.rotated newVersion _), _, _⟩ => some newVersion
  | _ => none

def rotated (log : (signing keyPath).Log) : List String := log.filterMap rotates

/-- No lookup of the signer whose listing began before a version became enabled stores what it
found after the caches were dropped for that version. -/
def storesInTime : (signing keyPath).Guard := fun _ log e =>
  ∀ t ∈ signerStorer e, ∀ version ∈ enabled keyPath (sinceListing t log), version ∉ invalidated log

instance : ∀ s log e, Decidable (@storesInTime keyPath s log e) :=
  fun _ _ _ => inferInstanceAs (Decidable (∀ _ ∈ _, _))

variable {log : (signing keyPath).Log} {a : (signing keyPath).Action} {e : (signing keyPath).Entry} {n : String}
  {s s' : State} {t : ℕ}

lemma eq_of_rotates (h : rotates (.act a) = some n) : ∃ previousVersion, a.op = .answer (.rotated n previousVersion) := by
  obtain ⟨t, op, choice, reply⟩ := a
  cases op with
  | answer answer =>
    cases answer with
    | rotated newVersion previousVersion =>
      obtain rfl := Option.some.inj h
      exact ⟨previousVersion, rfl⟩
    | _ => cases h
  | _ => cases h

lemma rotated_subset (e : (signing keyPath).Entry) (log : (signing keyPath).Log) : rotated log ⊆ rotated (e :: log) :=
  fun _ h => mem_filterMap_cons.mpr (.inr h)

lemma invalidated_act (he : a.op.exec keyPath a.choice s = some (a.reply, s'))
    (h : (knowledge.known t (.act a :: log)).invalidated = some n) :
    (knowledge.known t log).invalidated = some n ∨ invalidates (.act a) = some n := by
  by_cases ht : a.tid = t
  · subst ht
    exact (invalidated_of_learns (learns_act log he) h).imp id invalidates_eq
  · rw [known_act_ne ht] at h
    exact .inl h

end Rotations

section Invariants

variable {s s' : State} {log : (signing keyPath).Log} {a : (signing keyPath).Action}

structure Settled (s : State) (log : (signing keyPath).Log) : Prop where
  learnt : ∀ t, Learnt keyPath s (knowledge.known t log)
  complete : ∀ t, Complete keyPath s log t
  enabled : invalidated log ⊆ enabledNames keyPath s.versions
  cached : ∀ c, s.caches.currentVersion .signer = some c → ∀ n ∈ invalidated log, atLeast c.value n = true
  invalidated : ∀ t n, (knowledge.known t log).invalidated = some n → n ∈ SigningKeys.invalidated log
  rotated : rotated log ⊆ SigningKeys.invalidated log
  covers : ∀ t, Covers (SigningKeys.rotated (prior (looksUp isSignerLookup t) log)) (knowledge.known t log)
  signer : ∀ t v, (knowledge.known t log).signer = some v →
    ∀ n ∈ SigningKeys.rotated (prior (looksUp isSignerLookup t) log), atLeast v n = true

/-- What the signer stores of a listing is no older than any version for which the caches have
been dropped, since that version was enabled before the listing began. -/
lemma Settled.stored (h : Settled s log) (ha : Allowed knowledge (fun _ => True) storesInTime s log a s') {value n : String}
    (hop : a.op = .memory (.setCurrentVersion .signer value)) (hn : n ∈ SigningKeys.invalidated log) : atLeast value n = true := by
  have hallowed := ha.allowed
  rw [hop] at hallowed
  obtain ⟨names, hnames, hnewest⟩ := hallowed
  have hlisted : n ∈ names := ((h.complete a.tid).listed hnames (h.enabled hn)).resolve_left
    fun hlate => ha.guard a.tid (signerStorer_eq hop) n hlate hn
  exact newest_atLeast (numbered_of_enabled ((h.learnt a.tid).listed names hnames)) hnewest hlisted

lemma Settled.act (h : Settled s log) (ha : Allowed knowledge (fun _ => True) storesInTime s log a s') :
    Settled s' (.act a :: log) where
  learnt := learnt_act h.learnt ha.exec
  complete t := (h.complete t).act ha.allowed ha.exec
  enabled := by
    intro n hn
    rw [enabledNames_exec ha.exec]
    rcases mem_filterMap_cons.mp hn with hop | hn
    · have hallowed := ha.allowed
      rw [eq_of_invalidates hop] at hallowed
      exact (h.learnt a.tid).ready n hallowed
    · exact h.enabled hn
  cached := by
    intro c hc n hn
    rcases signer_cached ha.exec hc with ⟨hc, hkept, -⟩ | hop
    · rcases mem_filterMap_cons.mp hn with hdropped | hn
      · exact absurd (eq_of_invalidates hdropped) (hkept n)
      · exact h.cached c hc n hn
    · rcases mem_filterMap_cons.mp hn with hdropped | hn
      · exact nomatch hop.symm.trans (eq_of_invalidates hdropped)
      · exact h.stored ha hop hn
  invalidated := by
    intro t n hq
    apply mem_filterMap_cons.mpr
    rcases invalidated_act ha.exec hq with hq | hop
    · exact .inr (h.invalidated t n hq)
    · exact .inl hop
  rotated := by
    intro n hn
    apply mem_filterMap_cons.mpr
    rcases mem_filterMap_cons.mp hn with hop | hn
    · obtain ⟨previousVersion, hop⟩ := eq_of_rotates hop
      have hallowed := ha.allowed
      rw [hop] at hallowed
      exact .inr (h.invalidated a.tid n hallowed)
    · exact .inr (h.rotated hn)
  covers t := covers_act rotated_subset (List.Subset.trans h.rotated h.enabled)
    (fun op hop => .inl (isSignerLookup_iff.mp hop)) (h.covers t) ha.allowed ha.exec
  signer := by
    intro t v hq n hn
    rcases signer_act ha.exec hq with ⟨hq, hlookup⟩ | ⟨hop, rfl, hlookup⟩ | ⟨hl, hlookup⟩
    · rw [prior_other hlookup] at hn
      exact h.signer t v hq n hn
    · rw [prior_other hlookup] at hn
      have hallowed := ha.allowed
      rw [hop] at hallowed
      obtain ⟨names, hnames, hnewest⟩ := hallowed
      exact newest_atLeast (numbered_of_enabled ((h.learnt a.tid).listed names hnames)) hnewest
        ((h.covers a.tid).listed names hnames hn)
    · rw [prior_now hlookup] at hn
      obtain ⟨c, hc, -, rfl⟩ := live_eq_some_iff.mp hl
      exact h.cached c hc n (h.rotated hn)

lemma Settled.env {e : Environment} (h : Settled s log) (he : e.exec s = some s') : Settled s' (.env e :: log) where
  learnt t := (h.learnt t).mono (enabledNames_env he)
  complete t := (h.complete t).env he
  enabled := List.Subset.trans h.enabled (enabledNames_env he)
  cached := by
    rw [caches_of_env he]
    exact h.cached
  invalidated := h.invalidated
  rotated := h.rotated
  covers := h.covers
  signer := h.signer

lemma settled_inductive : Inductive (S := signing keyPath) knowledge (fun _ => True) storesInTime Settled :=
  ⟨fun hi ha => hi.act ha, fun hi _ he _ => hi.env he⟩

lemma settled_started (now : ℕ) (versions : List CryptoKeyVersion) :
    Settled (⟨now, versions, {}⟩ : State) ([] : (signing keyPath).Log) where
  learnt _ := ⟨nofun, nofun⟩
  complete := complete_started
  enabled := List.nil_subset _
  cached := nofun
  invalidated := nofun
  rotated := List.nil_subset _
  covers _ := ⟨nofun, nofun⟩
  signer := nofun

end Invariants

section Examples

def lookingUp (t : ℕ) : List SigningEvent :=
  [.start (.signClaims "claims"), .act t .done, .act t .done, .act t (.listed [firstVersion])]

def SigningOp.kid : SigningOp → Option String
  | .answer (.signed certificate) => some certificate.kid
  | _ => none

lemma eq_signed {op : SigningOp} {kid : String} (h : op.kid = some kid) :
    ∃ certificate, op = .answer (.signed certificate) ∧ certificate.kid = kid := by
  cases op with
  | answer a =>
    cases a with
    | signed certificate => exact ⟨certificate, rfl, Option.some.inj h⟩
    | _ => cases h
  | _ => cases h

end Examples

end ChameleonVault.SigningKeys
