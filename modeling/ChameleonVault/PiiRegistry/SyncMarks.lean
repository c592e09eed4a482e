import ChameleonVault.Concurrency.Since
import ChameleonVault.PiiRegistry.Calls
import ChameleonVault.PiiRegistry.Mirror

/-! Sync marks among other calls on a resource. A mark reads the served entry, advances the store
and writes the entry back with the store's timestamp; whatever happens in between is overwritten. -/

namespace ChameleonVault.PiiRegistry

open Collections Concurrency Interleaving Discipline
open KeyRegistry (truthy truthy_eq_some_iff)
open SyncMark (timestamp_write_ne)

variable {getTime : String → Option ℤ} {s s' : Registry} {log : (registry getTime).Log}
  {a : (registry getTime).Action} {tenantId resourceId : String} {entry : PiiRegistryEntry} {mark : SyncMark} {t : ℕ}

section Timestamps

def Registry.servedTime (mark : SyncMark) (tenantId resourceId : String) (s : Registry) : Option String :=
  (s.entries.get? (keyOf (some tenantId) resourceId)).bind mark.timestamp

def Registry.storedTime (mark : SyncMark) (tenantId resourceId : String) (s : Registry) : Option String :=
  (s.documents.lookup (docId tenantId resourceId)).bind mark.timestamp

@[simp] lemma servedTime_setEntry (mark : SyncMark) (tenantId resourceId : String) (entry : PiiRegistryEntry)
    (s : Registry) : (s.setEntry tenantId resourceId entry).servedTime mark tenantId resourceId = mark.timestamp entry := by
  simp [Registry.servedTime, Registry.setEntry]

@[simp] lemma servedTime_deleteEntry (mark : SyncMark) (tenantId resourceId : String) (s : Registry) :
    (s.deleteEntry tenantId resourceId).servedTime mark tenantId resourceId = none := by
  simp [Registry.servedTime, Registry.deleteEntry]

@[simp] lemma storedTime_setEntry (mark : SyncMark) (tenantId resourceId tenantId' resourceId' : String)
    (entry : PiiRegistryEntry) (s : Registry) :
    (s.setEntry tenantId' resourceId' entry).storedTime mark tenantId resourceId =
      s.storedTime mark tenantId resourceId := rfl

@[simp] lemma storedTime_deleteEntry (mark : SyncMark) (tenantId resourceId tenantId' resourceId' : String)
    (s : Registry) :
    (s.deleteEntry tenantId' resourceId').storedTime mark tenantId resourceId = s.storedTime mark tenantId resourceId :=
  rfl

instance {p : SyncMark → Prop} [DecidablePred p] : Decidable (∀ mark, p mark) :=
  decidable_of_iff (p .synced ∧ p .attempted)
    ⟨fun h mark => match mark with | .synced => h.1 | .attempted => h.2, fun h => ⟨h _, h _⟩⟩

end Timestamps

section Schedule

def readsBy (t : ℕ) : (registry getTime).Entry → (registry getTime).Log → Bool
  | .act ⟨t', .getEntry _ _, _, _⟩, _ => t' = t
  | _, _ => false

/-- The served entry of the resource is replaced or removed, other than by a mark of the kind. -/
def rewrites (mark : SyncMark) (tenantId resourceId : String) :
    (registry getTime).Entry → (registry getTime).Log → Bool
  | .act ⟨_, .setEntry tenantId' resourceId' _ written, _, _⟩, _ =>
    (tenantId', resourceId') = (tenantId, resourceId) && written ≠ some mark
  | .act ⟨_, .deleteEntry tenantId' resourceId', _, _⟩, _ => (tenantId', resourceId') = (tenantId, resourceId)
  | _, _ => false

def advancesBy (t : ℕ) : (registry getTime).Entry → (registry getTime).Log → Bool
  | .act ⟨t', .advance _ _ _ _, _, .ok _⟩, _ => t' = t
  | _, _ => false

/-- The timestamp of the kind that is stored for the resource is written. -/
def restamps (mark : SyncMark) (tenantId resourceId : String) :
    (registry getTime).Entry → (registry getTime).Log → Bool
  | .act ⟨_, .upsert tenantId' entry, _, .ok _⟩, _ => (tenantId', entry.resourceId) = (tenantId, resourceId)
  | .act ⟨_, .delete tenantId' resourceId', _, .ok _⟩, _ => (tenantId', resourceId') = (tenantId, resourceId)
  | .act ⟨_, .advance mark' tenantId' resourceId' candidateIso, _, .ok stored⟩, _ =>
    mark' = mark && (tenantId', resourceId') = (tenantId, resourceId) && (show String from stored) = candidateIso
  | _, _ => false

def restampedSince (t : ℕ) (mark : SyncMark) (tenantId resourceId : String) (log : (registry getTime).Log) : Bool :=
  since (advancesBy t) (fun e log => restamps mark tenantId resourceId e log && !advancesBy t e log) log

def Pending.subject : Pending → String × String
  | .upserted tenantId entry => (tenantId, entry.resourceId)
  | .deleted tenantId resourceId => (tenantId, resourceId)
  | .advanced _ tenantId resourceId _ _ => (tenantId, resourceId)

def Pending.dates (mark : SyncMark) : Pending → Bool
  | .advanced mark' _ _ _ _ => mark' = mark
  | _ => true

def settles (mark : SyncMark) (tenantId resourceId : String) (q : Knowledge) : Bool :=
  q.pending.any fun pending => pending.subject = (tenantId, resourceId) && pending.dates mark

/-- Another call has written the store, and is still to leave its timestamp in memory. -/
def othersSettle (t : ℕ) (mark : SyncMark) (tenantId resourceId : String) (log : (registry getTime).Log) : Bool :=
  anyThread (fun u => u ≠ t && settles mark tenantId resourceId (calls.known u log)) log

/-- A mark writes back what nothing but marks of its kind have replaced since it was read, and no call
leaves a timestamp in memory that the store has given up. -/
def timely (t : ℕ) (tenantId resourceId : String) (entry : PiiRegistryEntry) (s : Registry)
    (log : (registry getTime).Log) : Option SyncMark → Prop
  | some mark => since (readsBy t) (rewrites mark tenantId resourceId) log = false ∧
      (restampedSince t mark tenantId resourceId log = false ∨ othersSettle t mark tenantId resourceId log = true)
  | none => ∀ mark : SyncMark, s.storedTime mark tenantId resourceId = mark.timestamp entry ∨
      othersSettle t mark tenantId resourceId log = true

def Op.written : Op → Option (String × String)
  | .setEntry tenantId resourceId _ _ => some (tenantId, resourceId)
  | .deleteEntry tenantId resourceId => some (tenantId, resourceId)
  | _ => none

def Op.marking : Op → Option SyncMark
  | .setEntry _ _ _ mark => mark
  | _ => none

def Op.document : Op → Option (String × String)
  | .upsert tenantId entry => some (tenantId, entry.resourceId)
  | .delete tenantId resourceId => some (tenantId, resourceId)
  | .advance _ tenantId resourceId _ => some (tenantId, resourceId)
  | _ => none

def orderly (getTime : String → Option ℤ) (tenantId resourceId : String) : (registry getTime).Guard := fun s log e =>
  match e with
  | .act ⟨t, .setEntry tenantId' resourceId' entry written, _, _⟩ =>
    keyOf (some tenantId') resourceId' = keyOf (some tenantId) resourceId →
      (tenantId', resourceId') = (tenantId, resourceId) ∧ timely t tenantId resourceId entry s log written
  | .act ⟨t, .deleteEntry tenantId' resourceId', _, _⟩ =>
    keyOf (some tenantId') resourceId' = keyOf (some tenantId) resourceId →
      (tenantId', resourceId') = (tenantId, resourceId) ∧ ∀ mark : SyncMark,
        s.storedTime mark tenantId resourceId = none ∨ othersSettle t mark tenantId resourceId log = true
  | .act ⟨_, op, outcome, _⟩ => op.document = some (tenantId, resourceId) → outcome ≠ .unconfirmed
  | .env _ => True

instance : Decidable (timely t tenantId resourceId entry s log none) := inferInstanceAs (Decidable (∀ _ : SyncMark, _ ∨ _))

instance : Decidable (timely t tenantId resourceId entry s log (some mark)) := inferInstanceAs (Decidable (_ ∧ (_ ∨ _)))

instance : ∀ s log e, Decidable (orderly getTime tenantId resourceId s log e) := fun _ _ e =>
  match e with
  | .act ⟨_, .setEntry _ _ _ none, _, _⟩ => inferInstanceAs (Decidable (_ → _ ∧ timely _ _ _ _ _ _ none))
  | .act ⟨_, .setEntry _ _ _ (some _), _, _⟩ => inferInstanceAs (Decidable (_ → _ ∧ timely _ _ _ _ _ _ (some _)))
  | .act ⟨_, .deleteEntry _ _, _, _⟩ => inferInstanceAs (Decidable (_ → _ ∧ ∀ _ : SyncMark, _ ∨ _))
  | .act ⟨_, .getEntry _ _, _, _⟩ => inferInstanceAs (Decidable (_ → _))
  | .act ⟨_, .upsert _ _, _, _⟩ => inferInstanceAs (Decidable (_ → _))
  | .act ⟨_, .delete _ _, _, _⟩ => inferInstanceAs (Decidable (_ → _))
  | .act ⟨_, .advance _ _ _ _, _, _⟩ => inferInstanceAs (Decidable (_ → _))
  | .env e => nomatch e

end Schedule

section Stored

lemma docId_ne {tenantId' resourceId' : String} (h : (tenantId', resourceId') ≠ (tenantId, resourceId)) :
    docId tenantId resourceId ≠ docId tenantId' resourceId' := by
  intro hid
  obtain ⟨rfl, rfl⟩ := docId_inj hid
  exact h rfl

lemma storedTime_congr
    (h : s'.documents.lookup (docId tenantId resourceId) = s.documents.lookup (docId tenantId resourceId)) :
    s'.storedTime mark tenantId resourceId = s.storedTime mark tenantId resourceId := by
  rw [Registry.storedTime, Registry.storedTime, h]

lemma storedTime_of_exec {op : Op} {outcome : Outcome} {reply : Except RegistryError op.Res}
    (h : op.exec getTime outcome s = some (reply, s'))
    (hq : restamps mark tenantId resourceId (.act ⟨t, op, outcome, reply⟩) log = false)
    (ho : op.document = some (tenantId, resourceId) → outcome ≠ .unconfirmed) :
    s'.storedTime mark tenantId resourceId = s.storedTime mark tenantId resourceId := by
  cases op
  case upsert tenantId' entry =>
    rw [exec_upsert] at h
    rcases runStore_cases h with ⟨r, hr, hreply⟩ | ⟨rfl, -⟩
    · obtain ⟨-, rfl⟩ := Prod.mk.inj (Except.ok.inj hr)
      by_cases hid : (tenantId', entry.resourceId) = (tenantId, resourceId)
      · rcases hreply with ⟨-, rfl⟩ | ⟨hu, -⟩
        · simp [restamps, hid] at hq
        · exact absurd hu (ho (congrArg some hid))
      · exact storedTime_congr (AList.lookup_insert_ne (docId_ne hid))
    · rfl
  case delete tenantId' resourceId' =>
    rw [exec_delete] at h
    rcases runStore_cases h with ⟨r, hr, hreply⟩ | ⟨rfl, -⟩
    · obtain ⟨-, rfl⟩ := Prod.mk.inj (Except.ok.inj hr)
      by_cases hid : (tenantId', resourceId') = (tenantId, resourceId)
      · rcases hreply with ⟨-, rfl⟩ | ⟨hu, -⟩
        · simp [restamps, hid] at hq
        · exact absurd hu (ho (congrArg some hid))
      · exact storedTime_congr (AList.lookup_erase_ne (docId_ne hid))
    · rfl
  case advance mark' tenantId' resourceId' candidateIso =>
    rw [exec_advance] at h
    rcases runStore_cases h with ⟨stored, hr, hreply⟩ | ⟨rfl, -⟩
    · obtain ⟨document, hl, ⟨-, -, rfl⟩ | ⟨rfl, -, rfl⟩⟩ := advance_cases hr
      · rfl
      · by_cases hid : (tenantId', resourceId') = (tenantId, resourceId)
        · obtain ⟨rfl, rfl⟩ := Prod.mk.inj hid
          by_cases hm : mark' = mark
          · rcases hreply with ⟨-, rfl⟩ | ⟨hu, -⟩
            · simp [restamps, hm] at hq
            · exact absurd hu (ho rfl)
          · simp [Registry.storedTime, hl, timestamp_write_ne (Ne.symm hm)]
        · exact storedTime_congr (AList.lookup_insert_ne (docId_ne hid))
    · rfl
  all_goals
    obtain rfl := (Prod.mk.inj (Option.some.inj h)).2
    rfl

end Stored

section Knowledge

variable {existing : PiiRegistryEntry} {stored : String} {s₀ : Registry}

abbrev Orderly (tenantId resourceId : String) (s : Registry) (log : (registry getTime).Log)
    (a : (registry getTime).Action) (s' : Registry) : Prop :=
  Allowed calls (fun _ => True) (orderly getTime tenantId resourceId) s log a s'

lemma confirmed (ha : Orderly tenantId resourceId s log a s') (hd : a.op.document = some (tenantId, resourceId)) :
    a.choice ≠ .unconfirmed := by
  have hguard := ha.guard
  obtain ⟨t, op, outcome, reply⟩ := a
  cases op with
  | getEntry => exact nomatch hd
  | setEntry => exact nomatch hd
  | deleteEntry => exact nomatch hd
  | upsert => exact hguard hd
  | delete => exact hguard hd
  | advance => exact hguard hd

lemma advancesBy_of_ne (h : a.tid ≠ t) : advancesBy t (.act a) log = false := by
  obtain ⟨t', op, outcome, reply⟩ := a
  cases op with
  | advance => cases reply with
    | error => rfl
    | ok => exact decide_eq_false h
  | _ => rfl

lemma readsBy_of_ne (h : a.tid ≠ t) : readsBy t (.act a) log = false := by
  obtain ⟨t', op, outcome, reply⟩ := a
  cases op with
  | getEntry => exact decide_eq_false h
  | _ => rfl

lemma existing_act (ha : Orderly tenantId resourceId s log a s')
    (h : (calls.known t (.act a :: log)).existing = some (tenantId, resourceId, existing)) :
    (∃ outcome, a = ⟨t, .getEntry tenantId resourceId, outcome, .ok (some existing)⟩) ∨
      readsBy t (.act a) log = false ∧ (calls.known t log).existing = some (tenantId, resourceId, existing) := by
  have hexec := ha.exec
  by_cases ht : a.tid = t
  · subst ht
    rw [known_act_self] at h
    obtain ⟨t, op, outcome, reply⟩ := a
    cases op with
    | getEntry tenantId' resourceId' =>
      cases reply with
      | error err => exact nomatch (Prod.mk.inj (Option.some.inj hexec)).1
      | ok read =>
        obtain ⟨existing', rfl, he⟩ := Option.map_eq_some_iff.mp h
        obtain ⟨rfl, rfl, rfl⟩ : tenantId' = tenantId ∧ resourceId' = resourceId ∧ existing' = existing := by
          simpa using he
        exact .inl ⟨outcome, rfl⟩
    | _ => cases reply <;> exact .inr ⟨rfl, h⟩
  · rw [known_act_ne ht] at h
    exact .inr ⟨readsBy_of_ne ht, h⟩

lemma advanced_act (ha : Orderly tenantId resourceId s log a s')
    (h : (calls.known t (.act a :: log)).pending = some (.advanced mark tenantId resourceId existing stored)) :
    (∃ candidateIso outcome, a = ⟨t, .advance mark tenantId resourceId candidateIso, outcome, .ok stored⟩ ∧
        (calls.known t log).existing = some (tenantId, resourceId, existing)) ∨
      advancesBy t (.act a) log = false ∧
        (calls.known t log).pending = some (.advanced mark tenantId resourceId existing stored) ∧
        (calls.known t (.act a :: log)).existing = (calls.known t log).existing := by
  have hallowed := ha.allowed
  by_cases ht : a.tid = t
  · subst ht
    rw [known_act_self] at h ⊢
    obtain ⟨t, op, outcome, reply⟩ := a
    cases op with
    | advance mark' tenantId' resourceId' candidateIso =>
      cases reply with
      | error err => exact .inr ⟨rfl, h, rfl⟩
      | ok stored' =>
        obtain ⟨-, existing', hread, -⟩ := hallowed
        have h : Option.map (fun read : String × String × PiiRegistryEntry =>
          Pending.advanced mark' tenantId' resourceId' read.2.2 stored') (calls.known t log).existing =
            some (.advanced mark tenantId resourceId existing stored) := h
        rw [hread] at h
        obtain ⟨rfl, rfl, rfl, rfl, rfl⟩ := Pending.advanced.inj (Option.some.inj h)
        exact .inl ⟨candidateIso, outcome, rfl, hread⟩
    | upsert tenantId' entry =>
      cases reply with
      | error err => exact .inr ⟨rfl, h, rfl⟩
      | ok r => exact nomatch h
    | delete tenantId' resourceId' =>
      cases reply with
      | error err => exact .inr ⟨rfl, h, rfl⟩
      | ok r => exact nomatch h
    | getEntry tenantId' resourceId' =>
      have hnone : (calls.known t log).pending = none := hallowed
      cases reply with
      | error err => exact nomatch h.symm.trans hnone
      | ok read => exact nomatch h.symm.trans hnone
    | setEntry tenantId' resourceId' entry written =>
      cases reply with
      | error err => exact .inr ⟨rfl, h, rfl⟩
      | ok r => exact nomatch h
    | deleteEntry tenantId' resourceId' =>
      cases reply with
      | error err => exact .inr ⟨rfl, h, rfl⟩
      | ok r => exact nomatch h
  · rw [known_act_ne ht] at h
    exact .inr ⟨advancesBy_of_ne ht, h, by rw [known_act_ne ht]⟩

lemma allowed_pending {q : Knowledge} {op : Op} {pending : Pending} (h : calls.allowed q op)
    (hp : q.pending = some pending) : op.written = some pending.subject := by
  cases op with
  | getEntry tenantId' resourceId' =>
    have hnone : q.pending = none := h
    exact nomatch hp.symm.trans hnone
  | upsert tenantId' entry => exact nomatch hp.symm.trans h.1
  | delete tenantId' resourceId' => exact nomatch hp.symm.trans h.1
  | advance mark' tenantId' resourceId' candidateIso => exact nomatch hp.symm.trans h.1
  | setEntry tenantId' resourceId' entry written =>
    cases written with
    | none =>
      obtain ⟨hpending, rfl⟩ := h
      obtain rfl := Option.some.inj (hp.symm.trans hpending)
      rfl
    | some mark' =>
      obtain ⟨existing, stored, hpending, -⟩ := h
      obtain rfl := Option.some.inj (hp.symm.trans hpending)
      rfl
  | deleteEntry tenantId' resourceId' =>
    have hpending : q.pending = some (.deleted tenantId' resourceId') := h
    obtain rfl := Option.some.inj (hp.symm.trans hpending)
    rfl

lemma settles_of_othersSettle (h : othersSettle a.tid mark tenantId resourceId log = true) :
    ∃ t, settles mark tenantId resourceId (calls.known t (.act a :: log)) = true := by
  have hstart (u : ℕ) (hu : (u ≠ a.tid && settles mark tenantId resourceId (calls.known u log)) = true) :
      calls.known u log ≠ calls.start := by
    intro hstart
    rw [hstart] at hu
    simp [settles, calls] at hu
  obtain ⟨u, hu⟩ := (anyThread_iff hstart).mp h
  rw [Bool.and_eq_true, decide_eq_true_eq] at hu
  exact ⟨u, by rw [known_act_ne (Ne.symm hu.1)]; exact hu.2⟩

lemma settles_of_restamps (ha : Orderly tenantId resourceId s log a s')
    (h : restamps mark tenantId resourceId (.act a) log = true) :
    settles mark tenantId resourceId (calls.known a.tid (.act a :: log)) = true := by
  have hallowed := ha.allowed
  rw [known_act_self]
  obtain ⟨t, op, outcome, reply⟩ := a
  cases op with
  | upsert tenantId' entry =>
    cases reply with
    | error err => contradiction
    | ok r => simpa [settles, calls, Pending.subject, Pending.dates, restamps] using h
  | delete tenantId' resourceId' =>
    cases reply with
    | error err => contradiction
    | ok r => simpa [settles, calls, Pending.subject, Pending.dates, restamps] using h
  | advance mark' tenantId' resourceId' candidateIso =>
    cases reply with
    | error err => contradiction
    | ok stored =>
      obtain ⟨-, existing, hread, -⟩ := hallowed
      simp only [restamps, Bool.and_eq_true, decide_eq_true_eq] at h
      change Option.any _ (Option.map _ (calls.known t log).existing) = true
      rw [hread]
      simpa [Pending.subject, Pending.dates] using h.1.symm
  | getEntry => contradiction
  | setEntry => contradiction
  | deleteEntry => contradiction

lemma settles_act (ha : Orderly tenantId resourceId s log a s')
    (h : settles mark tenantId resourceId (calls.known t log) = true) :
    settles mark tenantId resourceId (calls.known t (.act a :: log)) = true ∨
      a.tid = t ∧ a.op.written = some (tenantId, resourceId) := by
  by_cases ht : a.tid = t
  · subst ht
    obtain ⟨pending, hp, hsettles⟩ := (Option.any_eq_true _ _).mp h
    rw [Bool.and_eq_true, decide_eq_true_eq] at hsettles
    exact .inr ⟨rfl, (allowed_pending ha.allowed hp).trans (congrArg some hsettles.1)⟩
  · rw [known_act_ne ht]
    exact .inl h

end Knowledge

section Marking

variable {existing : PiiRegistryEntry} {stored : String} {outcome : Outcome}

/-- What the calls of an orderly run may rely on, for one resource. -/
structure Marking (tenantId resourceId : String) (s : Registry) (log : (registry getTime).Log) : Prop where
  read (t : ℕ) (mark : SyncMark) (existing : PiiRegistryEntry) (stored : String) :
    (calls.known t log).pending = some (.advanced mark tenantId resourceId existing stored) →
      (calls.known t log).existing = some (tenantId, resourceId, existing)
  gap (t : ℕ) (mark : SyncMark) (existing : PiiRegistryEntry) :
    (calls.known t log).existing = some (tenantId, resourceId, existing) →
    since (readsBy t) (rewrites mark tenantId resourceId) log = false →
      ∃ served, s.entries.get? (keyOf (some tenantId) resourceId) = some served ∧
        ∀ stored, mark.write stored served = mark.write stored existing
  fresh (t : ℕ) (mark : SyncMark) (existing : PiiRegistryEntry) (stored : String) :
    (calls.known t log).pending = some (.advanced mark tenantId resourceId existing stored) →
    restampedSince t mark tenantId resourceId log = false →
      s.storedTime mark tenantId resourceId = some stored
  settled (mark : SyncMark) : s.servedTime mark tenantId resourceId = s.storedTime mark tenantId resourceId ∨
    ∃ t, settles mark tenantId resourceId (calls.known t log) = true

lemma Marking.written (h : Marking tenantId resourceId s log)
    {reply : Except RegistryError Unit} (ha : Orderly tenantId resourceId s log
      ⟨t, .setEntry tenantId resourceId entry (some mark), outcome, reply⟩ s') :
    ∃ served existing stored, s.entries.get? (keyOf (some tenantId) resourceId) = some served ∧
      entry = mark.write stored served ∧
      (calls.known t log).pending = some (.advanced mark tenantId resourceId existing stored) := by
  obtain ⟨existing, stored, hp, rfl⟩ := ha.allowed
  obtain ⟨-, hquiet, -⟩ := ha.guard rfl
  obtain ⟨served, hget, hserved⟩ := h.gap t mark existing (h.read t mark existing stored hp) hquiet
  exact ⟨served, existing, stored, hget, (hserved stored).symm, hp⟩

lemma Marking.gap_act (h : Marking tenantId resourceId s log) (ha : Orderly tenantId resourceId s log a s')
    (hr : (calls.known t (.act a :: log)).existing = some (tenantId, resourceId, existing))
    (hs : since (readsBy t) (rewrites mark tenantId resourceId) (.act a :: log) = false) :
    ∃ served, s'.entries.get? (keyOf (some tenantId) resourceId) = some served ∧
      ∀ stored, mark.write stored served = mark.write stored existing := by
  have hexec := ha.exec
  have hentries := exec_entries hexec
  have hguard := ha.guard
  rcases existing_act ha hr with ⟨outcome, rfl⟩ | ⟨hstop, hold⟩
  · obtain ⟨hreply, rfl⟩ := Prod.mk.inj (Option.some.inj hexec)
    exact ⟨existing, Except.ok.inj hreply, fun _ => rfl⟩
  · obtain ⟨hq, hs⟩ := not_since_cons hstop hs
    obtain ⟨served, hget, hserved⟩ := h.gap t mark existing hold hs
    obtain ⟨u, op, outcome, reply⟩ := a
    cases op
    case getEntry =>
      obtain rfl := (Prod.mk.inj (Option.some.inj hexec)).2
      exact ⟨served, hget, hserved⟩
    case setEntry tenantId' resourceId' entry written =>
      obtain rfl := (Prod.mk.inj (Option.some.inj hexec)).2
      by_cases hkey : keyOf (some tenantId') resourceId' = keyOf (some tenantId) resourceId
      · obtain ⟨hid, -⟩ := hguard hkey
        obtain ⟨rfl, rfl⟩ := Prod.mk.inj hid
        obtain rfl : written = some mark := by simpa [rewrites] using hq
        obtain ⟨served', existing', stored, hget', rfl, -⟩ := h.written ha
        obtain rfl := Option.some.inj (hget.symm.trans hget')
        refine ⟨mark.write stored served, OrderedMap.get?_set_self _ _ _, fun stored' => ?_⟩
        rw [SyncMark.write_write, hserved]
      · exact ⟨served, (OrderedMap.get?_set_ne (Ne.symm hkey) _ _).trans hget, hserved⟩
    case deleteEntry tenantId' resourceId' =>
      obtain rfl := (Prod.mk.inj (Option.some.inj hexec)).2
      by_cases hkey : keyOf (some tenantId') resourceId' = keyOf (some tenantId) resourceId
      · obtain ⟨hid, -⟩ := hguard hkey
        simp [rewrites, hid] at hq
      · exact ⟨served, (OrderedMap.get?_erase_ne (Ne.symm hkey) _).trans hget, hserved⟩
    all_goals
      rw [hentries rfl]
      exact ⟨served, hget, hserved⟩

lemma Marking.read_act (h : Marking tenantId resourceId s log) (ha : Orderly tenantId resourceId s log a s')
    (hp : (calls.known t (.act a :: log)).pending = some (.advanced mark tenantId resourceId existing stored)) :
    (calls.known t (.act a :: log)).existing = some (tenantId, resourceId, existing) := by
  rcases advanced_act ha hp with ⟨candidateIso, outcome, rfl, hread⟩ | ⟨-, hold, hread⟩
  · have hnow := known_act_self (D := calls)
      (⟨t, .advance mark tenantId resourceId candidateIso, outcome, .ok stored⟩ : (registry getTime).Action) log
    rw [hnow]
    exact hread
  · rw [hread]
    exact h.read t mark existing stored hold

lemma Marking.fresh_act (h : Marking tenantId resourceId s log) (ha : Orderly tenantId resourceId s log a s')
    (hp : (calls.known t (.act a :: log)).pending = some (.advanced mark tenantId resourceId existing stored))
    (hs : restampedSince t mark tenantId resourceId (.act a :: log) = false) :
    s'.storedTime mark tenantId resourceId = some stored := by
  rcases advanced_act ha hp with ⟨candidateIso, outcome, rfl, -⟩ | ⟨hstop, hold, -⟩
  · have hexec : runStore (Registry.advance getTime mark tenantId resourceId candidateIso) outcome s =
      some (.ok stored, s') := ha.exec
    obtain ⟨-, hr⟩ := runStore_ok hexec
    obtain ⟨document, hl, ⟨hcurrent, -, rfl⟩ | ⟨rfl, -, rfl⟩⟩ := advance_cases hr
    · rw [Registry.storedTime, hl]
      exact (truthy_eq_some_iff.mp hcurrent).1
    · simp [Registry.storedTime]
  · obtain ⟨hq, hs⟩ := not_since_cons hstop hs
    have hq : restamps mark tenantId resourceId (.act a) log = false := by simpa [hstop] using hq
    rw [← h.fresh t mark existing stored hold hs]
    exact storedTime_of_exec ha.exec hq (confirmed ha)

lemma Marking.settled_of_quiet (h : Marking tenantId resourceId s log) (ha : Orderly tenantId resourceId s log a s')
    (hserved : s'.servedTime mark tenantId resourceId = s.servedTime mark tenantId resourceId)
    (hw : a.op.written ≠ some (tenantId, resourceId)) :
    s'.servedTime mark tenantId resourceId = s'.storedTime mark tenantId resourceId ∨
      ∃ t, settles mark tenantId resourceId (calls.known t (.act a :: log)) = true := by
  rcases h.settled mark with heq | ⟨t, ht⟩
  · cases hq : restamps mark tenantId resourceId (.act a) log with
    | true => exact .inr ⟨a.tid, settles_of_restamps ha hq⟩
    | false => exact .inl (by rw [hserved, heq, storedTime_of_exec ha.exec hq (confirmed ha)])
  · rcases settles_act ha ht with ht | ⟨-, hw'⟩
    · exact .inr ⟨t, ht⟩
    · exact absurd hw' hw

lemma Marking.settled_of_mark (h : Marking tenantId resourceId s log)
    {reply : Except RegistryError Unit} {mark' : SyncMark} (ha : Orderly tenantId resourceId s log
      ⟨t, .setEntry tenantId resourceId entry (some mark'), outcome, reply⟩ s') :
    s'.servedTime mark tenantId resourceId = s'.storedTime mark tenantId resourceId ∨
      ∃ u, settles mark tenantId resourceId (calls.known u
        (.act (⟨t, .setEntry tenantId resourceId entry (some mark'), outcome, reply⟩ : (registry getTime).Action) :: log)) =
          true := by
  obtain ⟨served, existing, stored, hget, rfl, hp⟩ := h.written ha
  obtain ⟨-, -, htimely⟩ := ha.guard rfl
  obtain rfl := (Prod.mk.inj (Option.some.inj ha.exec)).2
  rw [servedTime_setEntry, storedTime_setEntry]
  by_cases hm : mark = mark'
  · subst hm
    rcases htimely with hfresh | hothers
    · left
      rw [SyncMark.timestamp_write]
      exact (h.fresh t mark existing stored hp hfresh).symm
    · exact .inr (settles_of_othersSettle hothers)
  · rw [timestamp_write_ne hm]
    rcases h.settled mark with heq | ⟨u, hu⟩
    · left
      simpa [Registry.servedTime, hget] using heq
    · rcases settles_act ha hu with hu | ⟨rfl, -⟩
      · exact .inr ⟨u, hu⟩
      · simp [settles, hp, Pending.dates, Ne.symm hm] at hu

lemma Marking.settled_act (h : Marking tenantId resourceId s log) (ha : Orderly tenantId resourceId s log a s')
    (mark : SyncMark) :
    s'.servedTime mark tenantId resourceId = s'.storedTime mark tenantId resourceId ∨
      ∃ t, settles mark tenantId resourceId (calls.known t (.act a :: log)) = true := by
  have hexec := ha.exec
  have hentries := exec_entries hexec
  have hguard := ha.guard
  obtain ⟨t, op, outcome, reply⟩ := a
  cases op
  case getEntry =>
    obtain rfl := (Prod.mk.inj (Option.some.inj hexec)).2
    exact h.settled_of_quiet ha rfl fun hw => by cases hw
  case setEntry tenantId' resourceId' entry written =>
    by_cases hkey : keyOf (some tenantId') resourceId' = keyOf (some tenantId) resourceId
    · obtain ⟨hid, htimely⟩ := hguard hkey
      obtain ⟨rfl, rfl⟩ := Prod.mk.inj hid
      cases written with
      | some mark' => exact h.settled_of_mark ha
      | none =>
        obtain rfl := (Prod.mk.inj (Option.some.inj hexec)).2
        rcases htimely mark with heq | hothers
        · left
          rw [servedTime_setEntry, storedTime_setEntry, heq]
        · exact .inr (settles_of_othersSettle hothers)
    · obtain rfl := (Prod.mk.inj (Option.some.inj hexec)).2
      refine h.settled_of_quiet ha ?_ fun hw => hkey ?_
      · rw [Registry.servedTime, Registry.setEntry, OrderedMap.get?_set_ne (Ne.symm hkey), Registry.servedTime]
      · obtain ⟨rfl, rfl⟩ := Prod.mk.inj (Option.some.inj hw)
        rfl
  case deleteEntry tenantId' resourceId' =>
    obtain rfl := (Prod.mk.inj (Option.some.inj hexec)).2
    by_cases hkey : keyOf (some tenantId') resourceId' = keyOf (some tenantId) resourceId
    · obtain ⟨hid, htimely⟩ := hguard hkey
      obtain ⟨rfl, rfl⟩ := Prod.mk.inj hid
      rcases htimely mark with heq | hothers
      · left
        rw [servedTime_deleteEntry, storedTime_deleteEntry, heq]
      · exact .inr (settles_of_othersSettle hothers)
    · refine h.settled_of_quiet ha ?_ fun hw => hkey ?_
      · rw [Registry.servedTime, Registry.deleteEntry, OrderedMap.get?_erase_ne (Ne.symm hkey), Registry.servedTime]
      · obtain ⟨rfl, rfl⟩ := Prod.mk.inj (Option.some.inj hw)
        rfl
  all_goals
    refine h.settled_of_quiet ha ?_ fun hw => by cases hw
    rw [Registry.servedTime, hentries rfl, Registry.servedTime]

lemma marking_initial (hs : ∀ mark, s.servedTime mark tenantId resourceId = s.storedTime mark tenantId resourceId) :
    Marking tenantId resourceId s ([] : (registry getTime).Log) where
  read _ _ _ _ hp := nomatch hp
  gap _ _ _ hr := nomatch hr
  fresh _ _ _ _ hp := nomatch hp
  settled mark := .inl (hs mark)

lemma marking_inductive (getTime : String → Option ℤ) (tenantId resourceId : String) :
    Inductive calls (fun _ => True) (orderly getTime tenantId resourceId) (Marking tenantId resourceId) where
  act h ha :=
    ⟨fun _ _ _ _ => h.read_act ha, fun _ _ _ => h.gap_act ha, fun _ _ _ _ => h.fresh_act ha, h.settled_act ha⟩
  env := @fun _ _ _ e => nomatch e

end Marking

section Runs

lemma advance_latest {candidateIso stored : String} {time : ℤ}
    (h : s.advance getTime mark tenantId resourceId candidateIso = .ok (stored, s'))
    (ht : getTime candidateIso = some time) :
    s'.storedTime mark tenantId resourceId = some stored ∧ ∃ latest, getTime stored = some latest ∧ time ≤ latest ∧
      ∀ current before, truthy (s.storedTime mark tenantId resourceId) = some current → getTime current = some before →
        before ≤ latest := by
  obtain ⟨document, hl, hcases⟩ := advance_cases h
  have hbefore : s.storedTime mark tenantId resourceId = mark.timestamp document := by
    rw [Registry.storedTime, hl]
    rfl
  rw [hbefore]
  rcases hcases with ⟨hcurrent, hup, rfl⟩ | ⟨rfl, hold, rfl⟩
  · rw [hbefore]
    refine ⟨(truthy_eq_some_iff.mp hcurrent).1, ?_⟩
    rw [isUpToDate, ht] at hup
    split at hup
    · rename_i latest candidate hlatest hcandidate
      obtain rfl := Option.some.inj hcandidate
      refine ⟨latest, hlatest, of_decide_eq_true hup, fun current before hc hb => ?_⟩
      obtain rfl := Option.some.inj (hc.symm.trans hcurrent)
      obtain rfl := Option.some.inj (hb.symm.trans hlatest)
      omega
    · contradiction
  · refine ⟨by simp [Registry.storedTime], time, ht, by omega, fun current before hc hb => ?_⟩
    have hnot := hold current hc
    rw [isUpToDate, ht, hb, decide_eq_false_iff_not] at hnot
    omega

theorem sync_marks_keep_frame {s₀ : Registry}
    (hs : ∀ mark, s₀.servedTime mark tenantId resourceId = s₀.storedTime mark tenantId resourceId)
    {c : (registry getTime).Config} (hr : Reachable (orderly getTime tenantId resourceId) (initial s₀) c) :
    (∀ a d, Performs (orderly getTime tenantId resourceId) c a d →
      (∀ mark, a.op.written = some (tenantId, resourceId) → a.op.marking = some mark →
        ∃ served stored, c.state.entries.get? (keyOf (some tenantId) resourceId) = some served ∧
          d.state = c.state.setEntry tenantId resourceId (mark.write stored served)) ∧
      ∀ t mark candidateIso outcome stored time,
        a = ⟨t, .advance mark tenantId resourceId candidateIso, outcome, .ok stored⟩ → getTime candidateIso = some time →
        d.state.storedTime mark tenantId resourceId = some stored ∧ ∃ latest, getTime stored = some latest ∧
          time ≤ latest ∧ ∀ current before, truthy (c.state.storedTime mark tenantId resourceId) = some current →
            getTime current = some before → before ≤ latest) ∧
    (c.threads.all Prog.isDone = true → ∀ mark,
      c.state.servedTime mark tenantId resourceId = c.state.storedTime mark tenantId resourceId) := by
  have hg := calls_governs getTime
  have hc : Conforms calls (fun _ => True) (initial (S := registry getTime) s₀) := conforms_initial trivial
  have hm : Marking tenantId resourceId c.state c.log :=
    (marking_inductive getTime tenantId resourceId).run hg hc (marking_initial hs) hr
  refine ⟨fun a d ha => ?_, fun hdone mark => ?_⟩
  · have hallowed := (hc.reachable hg hr).allowed_of_performs hg ha
    constructor
    · intro mark hw hmark
      obtain ⟨t, op, outcome, reply⟩ := a
      cases op with
      | setEntry tenantId' resourceId' entry mark' =>
        obtain rfl : mark' = some mark := hmark
        obtain ⟨rfl, rfl⟩ := Prod.mk.inj (Option.some.inj hw)
        obtain ⟨served, existing, stored, hget, rfl, -⟩ := hm.written hallowed
        exact ⟨served, stored, hget, (Prod.mk.inj (Option.some.inj hallowed.exec)).2.symm⟩
      | _ => contradiction
    · rintro t mark candidateIso outcome stored time rfl ht
      have hexec : runStore (Registry.advance getTime mark tenantId resourceId candidateIso) outcome c.state =
        some (.ok stored, d.state) := hallowed.exec
      exact advance_latest (runStore_ok hexec).2 ht
  · rcases hm.settled mark with heq | ⟨t, ht⟩
    · exact heq
    · have ho : Obeyed calls Settled c :=
        (obeyed_initial s₀).reachable calls_follows (fun he => exec_possible he) hr
      have hnone : (calls.known t c.log).pending = none := ho.of_done rfl hdone t
      simp [settles, hnone] at ht

lemma servedTime_boot {p : Platform} {documents : AList (fun _ : String => PiiRegistryEntry)} (hd : Declared documents)
    (hc : Clear p documents tenantId resourceId) (hslash : '/' ∉ tenantId.toList) :
    (p.boot documents).servedTime mark tenantId resourceId = (p.boot documents).storedTime mark tenantId resourceId := by
  rw [Registry.servedTime, Registry.storedTime, Platform.boot, hc.get?_startup hd, if_pos (isTopLevel_docId hslash)]

abbrev MarkConfig := (registry exampleTimes).Config

abbrev MarkAction := (registry exampleTimes).Action

abbrev MarkEvent := Event (registry exampleTimes)

def startup : Registry := (⟨[], []⟩ : Platform).boot ∅

def marksOverlap : List MarkEvent :=
  [.start (.upsertEntry trackedEntry), .act 0 .done, .act 0 .done,
    .start (.markResourceSynced "bigquery:p.d.users" "acme" "2026-01-01T00:00:00.000Z"),
    .start (.markResourceSynced "bigquery:p.d.users" "acme" "2026-01-02T00:00:00.000Z"),
    .act 1 .done, .act 2 .done, .act 1 .done, .act 2 .done, .act 1 .done]

theorem sync_marks_keep_frame_overlapping : ∃ (c : MarkConfig) (a : MarkAction) (d : MarkConfig),
    Reachable (orderly exampleTimes "acme" "bigquery:p.d.users") (initial startup) c ∧
    Performs (orderly exampleTimes "acme" "bigquery:p.d.users") c a d ∧
    (∃ served stored, c.state.entries.get? (keyOf (some "acme") "bigquery:p.d.users") = some served ∧
      d.state = c.state.setEntry "acme" "bigquery:p.d.users" (SyncMark.write stored .synced served)) ∧
    d.state.servedTime .synced "acme" "bigquery:p.d.users" = some "2026-01-02T00:00:00.000Z" ∧
    ∀ mark, d.state.servedTime mark "acme" "bigquery:p.d.users" = d.state.storedTime mark "acme" "bigquery:p.d.users" := by
  have hrun : ∃ (c : MarkConfig) (a : MarkAction) (d : MarkConfig),
      Reachable (orderly exampleTimes "acme" "bigquery:p.d.users") (initial startup) c ∧
      Performs (orderly exampleTimes "acme" "bigquery:p.d.users") c a d ∧
      a.op.written = some ("acme", "bigquery:p.d.users") ∧ a.op.marking = some .synced ∧
      d.state.servedTime .synced "acme" "bigquery:p.d.users" = some "2026-01-02T00:00:00.000Z" ∧
      d.threads.all Prog.isDone = true := exists_performs marksOverlap 2 Outcome.done _ (by decide +kernel)
  obtain ⟨c, a, d, hr, ha, hw, hm, hserved, hdone⟩ := hrun
  have hs (mark : SyncMark) : startup.servedTime mark "acme" "bigquery:p.d.users" =
      startup.storedTime mark "acme" "bigquery:p.d.users" :=
    servedTime_boot declared_empty ⟨by simp, by simp⟩ (by decide)
  exact ⟨c, a, d, hr, ha, ((sync_marks_keep_frame hs hr).1 a d ha).1 .synced hw hm, hserved,
    (sync_marks_keep_frame hs (hr.tail ha.1)).2 hdone⟩

def removedMeanwhile : List MarkEvent :=
  [.start (.upsertEntry trackedEntry), .act 0 .done, .act 0 .done,
    .start (.markResourceSynced "bigquery:p.d.users" "acme" "2026-01-02T00:00:00.000Z"), .act 1 .done, .act 1 .done,
    .start (.removeEntry "bigquery:p.d.users" "acme"), .act 2 .done, .act 2 .done, .act 2 .done]

theorem mark_restores_removed_entry : ∃ (c : MarkConfig) (a : MarkAction) (d : MarkConfig),
    Reachable free (initial startup) c ∧ Performs free c a d ∧
    a.op.written = some ("acme", "bigquery:p.d.users") ∧ a.op.marking = some .synced ∧
    c.state.entries.get? (keyOf (some "acme") "bigquery:p.d.users") = none ∧
    d.state.entries.get? (keyOf (some "acme") "bigquery:p.d.users") =
      some { trackedEntry with lastSyncedAt := some "2026-01-02T00:00:00.000Z" } ∧
    d.threads.all Prog.isDone = true ∧
    d.state.servedTime .synced "acme" "bigquery:p.d.users" = some "2026-01-02T00:00:00.000Z" ∧
    d.state.storedTime .synced "acme" "bigquery:p.d.users" = none :=
  exists_performs removedMeanwhile 1 Outcome.done _ (by decide +kernel)

end Runs

end ChameleonVault.PiiRegistry
