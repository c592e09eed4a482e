import ChameleonVault.Concurrency.Discipline

/-! Invariants of interleaved runs. Each thread obeys its discipline whatever the others do,
so an invariant only has to survive one allowed operation at a time. -/

namespace ChameleonVault.Concurrency

open Interleaving

variable {S : Interleaving} {Q : Type}

namespace Discipline

variable (D : Discipline S.Op S.Ret Q)

def known (t : ℕ) : Log S → Q
  | [] => D.start
  | .act a :: log => if a.tid = t then D.next (known t log) a.op a.reply else known t log
  | .env _ :: log => known t log

variable {D}

lemma known_act_self (a : Action S) (log : Log S) :
    D.known a.tid (.act a :: log) = D.next (D.known a.tid log) a.op a.reply := by
  simp [known]

lemma known_act_ne {a : Action S} {t : ℕ} (h : a.tid ≠ t) (log : Log S) :
    D.known t (.act a :: log) = D.known t log := by
  simp [known, h]

lemma known_act_cases (a : Action S) (t : ℕ) (log : Log S) :
    D.known t (.act a :: log) = D.known t log ∨
      a.tid = t ∧ D.known t (.act a :: log) = D.next (D.known t log) a.op a.reply := by
  by_cases h : a.tid = t
  · subst h
    exact .inr ⟨rfl, known_act_self a log⟩
  · exact .inl (known_act_ne h log)

lemma known_eq_start {t : ℕ} {log : Log S} (h : ∀ a, Entry.act a ∈ log → a.tid ≠ t) :
    D.known t log = D.start := by
  induction log with
  | nil => rfl
  | cons e log ih =>
    have hlog : D.known t log = D.start := ih fun a ha => h a (List.mem_cons_of_mem e ha)
    cases e with
    | act a => rw [known_act_ne (h a List.mem_cons_self), hlog]
    | env e => exact hlog

def anyThread (P : ℕ → Bool) (log : Log S) : Bool :=
  log.any fun e => match e with
    | .act a => P a.tid
    | .env _ => false

lemma anyThread_iff {P : ℕ → Bool} {log : Log S} (hP : ∀ t, P t = true → D.known t log ≠ D.start) :
    anyThread P log = true ↔ ∃ t, P t = true := by
  constructor
  · intro h
    obtain ⟨e, -, he⟩ := List.any_eq_true.mp h
    cases e with
    | act a => exact ⟨a.tid, he⟩
    | env e => contradiction
  · rintro ⟨t, ht⟩
    by_contra hn
    apply hP t ht
    apply known_eq_start
    rintro a ha rfl
    exact hn (List.any_eq_true.mpr ⟨.act a, ha, ht⟩)

structure Governs (D : Discipline S.Op S.Ret Q) (valid : S.State → Prop) : Prop where
  body (j : S.Job) : D.Follows D.start (S.body j) (fun _ _ => True)
  exec {op : S.Op} {choice : S.Choice} {s s' : S.State} {r : S.Ret op} :
    valid s → S.exec op choice s = some (r, s') → D.possible op r ∧ valid s'
  env {e : S.Env} {s s' : S.State} : valid s → S.env e s = some s' → valid s'

structure Conforms (D : Discipline S.Op S.Ret Q) (valid : S.State → Prop) (c : Config S) : Prop where
  valid : valid c.state
  thread (t : ℕ) (p : Prog S.Op S.Ret Unit) :
    c.threads[t]? = some p → D.Follows (D.known t c.log) p (fun _ _ => True)
  fresh (t : ℕ) : c.threads.length ≤ t → D.known t c.log = D.start

variable {valid : S.State → Prop} {guard : Guard S}

section Obeyed

variable {post : Q → Prop} {c d : Config S}

/-- No thread has left the discipline, and what one knows at its end is as `post` says. -/
structure Obeyed (D : Discipline S.Op S.Ret Q) (post : Q → Prop) (c : Config S) : Prop where
  thread (t : ℕ) (p : Prog S.Op S.Ret Unit) :
    c.threads[t]? = some p → D.Follows (D.known t c.log) p (fun _ => post)
  fresh (t : ℕ) : c.threads.length ≤ t → D.known t c.log = D.start

lemma obeyed_initial (s : S.State) : Obeyed D post (initial s) :=
  ⟨fun t p hp => by simp [initial] at hp, fun _ _ => rfl⟩

lemma Obeyed.append (hc : Obeyed D post c) (hbody : ∀ j, D.Follows D.start (S.body j) (fun _ => post))
    (jobs : List S.Job) : Obeyed D post ⟨c.state, c.threads ++ jobs.map S.body, c.log⟩ where
  thread t p h := by
    simp only at h
    by_cases ht : t < c.threads.length
    · rw [List.getElem?_append_left ht] at h
      exact hc.thread t p h
    · rw [hc.fresh t (by omega)]
      rw [List.getElem?_append_right (by omega)] at h
      obtain ⟨j, _, rfl⟩ := List.mem_map.mp (List.mem_of_getElem? h)
      exact hbody j
  fresh t ht := by
    simp only [List.length_append, List.length_map] at ht
    exact hc.fresh t (by omega)

lemma Obeyed.pick (hc : Obeyed D post c) {t : ℕ} {next : Bool → Prog S.Op S.Ret Unit}
    (hp : c.threads[t]? = some (.choose next)) (b : Bool) :
    Obeyed D post ⟨c.state, c.threads.set t (next b), c.log⟩ where
  thread u p hu := by
    simp only at hu
    by_cases hut : u = t
    · subst hut
      have hlt : u < c.threads.length := (List.getElem?_eq_some_iff.mp hp).1
      rw [List.getElem?_set_self hlt] at hu
      obtain rfl := Option.some.inj hu
      exact hc.thread u _ hp b
    · rw [List.getElem?_set_ne (Ne.symm hut)] at hu
      exact hc.thread u p hu
  fresh u hu := hc.fresh u (by simpa using hu)

lemma Obeyed.act (hc : Obeyed D post c) {a : Action S} {next : S.Ret a.op → Prog S.Op S.Ret Unit} (s : S.State)
    (hp : c.threads[a.tid]? = some (.step a.op next)) (hr : D.possible a.op a.reply) :
    Obeyed D post ⟨s, c.threads.set a.tid (next a.reply), .act a :: c.log⟩ where
  thread u p hu := by
    simp only at hu ⊢
    have hlt : a.tid < c.threads.length := (List.getElem?_eq_some_iff.mp hp).1
    by_cases hut : u = a.tid
    · subst hut
      rw [List.getElem?_set_self hlt] at hu
      obtain rfl := Option.some.inj hu
      rw [known_act_self]
      exact (hc.thread a.tid _ hp).2 a.reply hr
    · rw [List.getElem?_set_ne (Ne.symm hut)] at hu
      rw [known_act_ne (Ne.symm hut)]
      exact hc.thread u p hu
  fresh u hu := by
    have hlt : a.tid < c.threads.length := (List.getElem?_eq_some_iff.mp hp).1
    simp only [List.length_set] at hu
    rw [known_act_ne (by omega)]
    exact hc.fresh u hu

lemma Obeyed.step (hc : Obeyed D post c) (hbody : ∀ j, D.Follows D.start (S.body j) (fun _ => post))
    (hpossible : ∀ {op choice r s}, S.exec op choice c.state = some (r, s) → D.possible op r) (h : Step guard c d) :
    Obeyed D post d := by
  cases h with
  | start j hj => exact hc.append hbody [j]
  | pick t next b hp => exact hc.pick hp b
  | act t op next choice reply s hp he hk => exact (hc.act (a := ⟨t, op, choice, reply⟩) s hp (hpossible he)).append hbody _
  | env e s he hk => exact ⟨hc.thread, hc.fresh⟩

lemma Obeyed.reachable (hc : Obeyed D post c) (hbody : ∀ j, D.Follows D.start (S.body j) (fun _ => post))
    (hpossible : ∀ {op choice s r s'}, S.exec op choice s = some (r, s') → D.possible op r) (h : Reachable guard c d) :
    Obeyed D post d := by
  induction h with
  | refl => exact hc
  | tail _ hs ih => exact ih.step hbody hpossible hs

/-- A thread that knows what none knows at its end is still under way. -/
lemma Obeyed.running (hc : Obeyed D post c) (hstart : post D.start) {t : ℕ} (h : ¬ post (D.known t c.log)) :
    ∃ p, c.threads[t]? = some p ∧ p.isDone = false := by
  by_cases ht : t < c.threads.length
  · have hp := hc.thread t c.threads[t] (List.getElem?_eq_getElem ht)
    refine ⟨_, List.getElem?_eq_getElem ht, ?_⟩
    cases hthread : c.threads[t] with
    | done u =>
      rw [hthread] at hp
      exact absurd hp h
    | step op next => rfl
    | choose next => rfl
  · rw [hc.fresh t (by omega)] at h
    exact absurd hstart h

lemma Obeyed.of_done (hc : Obeyed D post c) (hstart : post D.start) (hdone : c.threads.all Prog.isDone = true) (t : ℕ) :
    post (D.known t c.log) := by
  by_contra h
  obtain ⟨p, hp, hrunning⟩ := hc.running hstart h
  rw [List.all_eq_true.mp hdone p (List.mem_of_getElem? hp)] at hrunning
  contradiction

end Obeyed

lemma conforms_initial {s : S.State} (h : valid s) : Conforms D valid (initial s) :=
  ⟨h, fun t p hp => by simp [initial] at hp, fun _ _ => rfl⟩

lemma Conforms.obeyed {c : Config S} (hc : Conforms D valid c) : Obeyed D (fun _ => True) c := ⟨hc.thread, hc.fresh⟩

lemma Conforms.step (hg : Governs D valid) {c d : Config S} (hc : Conforms D valid c)
    (h : Step guard c d) : Conforms D valid d := by
  obtain ⟨hthread, hfresh⟩ := hc.obeyed.step hg.body (fun he => (hg.exec hc.valid he).1) h
  refine ⟨?_, hthread, hfresh⟩
  cases h with
  | start j hj => exact hc.valid
  | pick t next b hp => exact hc.valid
  | act t op next choice reply s hp he hk => exact (hg.exec hc.valid he).2
  | env e s he hk => exact hg.env hc.valid he

lemma Conforms.reachable (hg : Governs D valid) {c d : Config S} (hc : Conforms D valid c)
    (h : Reachable guard c d) : Conforms D valid d := by
  induction h with
  | refl => exact hc
  | tail _ hs ih => exact ih.step hg hs

lemma Conforms.obeys (hg : Governs D valid) {post : Q → Prop} {c d : Config S} (hc : Conforms D valid c)
    (ho : Obeyed D post c) (hbody : ∀ j, D.Follows D.start (S.body j) (fun _ => post)) (h : Reachable guard c d) :
    Obeyed D post d := by
  induction h with
  | refl => exact ho
  | tail hr hs ih => exact ih.step hbody (fun he => (hg.exec (hc.reachable hg hr).valid he).1) hs

lemma Conforms.allowed {c : Config S} (hc : Conforms D valid c) {t : ℕ} {op : S.Op}
    {next : S.Ret op → Prog S.Op S.Ret Unit} (h : c.threads[t]? = some (.step op next)) :
    D.allowed (D.known t c.log) op :=
  (hc.thread t _ h).1

structure Allowed (D : Discipline S.Op S.Ret Q) (valid : S.State → Prop) (guard : Guard S)
    (s : S.State) (log : Log S) (a : Action S) (s' : S.State) : Prop where
  valid : valid s
  allowed : D.allowed (D.known a.tid log) a.op
  possible : D.possible a.op a.reply
  exec : S.exec a.op a.choice s = some (a.reply, s')
  guard : guard s log (.act a)

lemma Conforms.allowed_of_performs (hg : Governs D valid) {c d : Config S} (hc : Conforms D valid c)
    {a : Action S} (h : Performs guard c a d) : Allowed D valid guard c.state c.log a d.state := by
  obtain ⟨hs, hl⟩ := h
  cases hs with
  | start j hj => simp at hl
  | pick t next b hp => simp at hl
  | act t op next choice reply s hp he hk =>
    obtain rfl := Entry.act.inj (List.cons.inj hl).1
    exact ⟨hc.valid, hc.allowed hp, (hg.exec hc.valid he).1, he, hk⟩
  | env e s he hk => cases (List.cons.inj hl).1

structure Inductive (D : Discipline S.Op S.Ret Q) (valid : S.State → Prop) (guard : Guard S)
    (inv : S.State → Log S → Prop) : Prop where
  act {s s' : S.State} {log : Log S} {a : Action S} :
    inv s log → Allowed D valid guard s log a s' → inv s' (.act a :: log)
  env {s s' : S.State} {log : Log S} {e : S.Env} :
    inv s log → valid s → S.env e s = some s' → guard s log (.env e) → inv s' (.env e :: log)

variable {inv : S.State → Log S → Prop}

lemma Inductive.step (hi : Inductive D valid guard inv) (hg : Governs D valid) {c d : Config S}
    (hc : Conforms D valid c) (h : inv c.state c.log) (hs : Step guard c d) :
    inv d.state d.log := by
  cases hs with
  | start j hj => exact h
  | pick t next b hp => exact h
  | act t op next choice reply s hp he hk =>
    exact hi.act h (hc.allowed_of_performs hg ⟨.act t op next choice reply s hp he hk, rfl⟩)
  | env e s he hk => exact hi.env h hc.valid he hk

lemma Inductive.run (hi : Inductive D valid guard inv) (hg : Governs D valid) {c d : Config S}
    (hc : Conforms D valid c) (h : inv c.state c.log) (hr : Reachable guard c d) :
    inv d.state d.log := by
  induction hr with
  | refl => exact h
  | tail hr hs ih => exact hi.step hg (hc.reachable hg hr) ih hs

section Within

variable {c d : Config S} {a : Action S}

/-- A guard together with what a discipline says of each operation. Every run meets the second
part by itself, so that an invariant can be carried by several disciplines at once. -/
def within (D : Discipline S.Op S.Ret Q) (guard : Guard S) : Guard S := fun s log e =>
  guard s log e ∧ ∀ a, e = .act a → D.allowed (D.known a.tid log) a.op ∧ D.possible a.op a.reply

lemma Conforms.step_within (hg : Governs D valid) (hc : Conforms D valid c) (h : Step guard c d) :
    Step (within D guard) c d := by
  cases h with
  | start j hj => exact .start j hj
  | pick t next b hp => exact .pick t next b hp
  | act t op next choice reply s hp he hk =>
    refine .act t op next choice reply s hp he ⟨hk, ?_⟩
    intro a ha
    obtain rfl := Entry.act.inj ha
    exact ⟨hc.allowed hp, (hg.exec hc.valid he).1⟩
  | env e s he hk => exact .env e s he ⟨hk, nofun⟩

lemma Conforms.reachable_within (hg : Governs D valid) (hc : Conforms D valid c) (h : Reachable guard c d) :
    Reachable (within D guard) c d := by
  induction h with
  | refl => exact .refl
  | tail hr hs ih => exact ih.tail ((hc.reachable hg hr).step_within hg hs)

lemma Conforms.performs_within (hg : Governs D valid) (hc : Conforms D valid c) (h : Performs guard c a d) :
    Performs (within D guard) c a d :=
  ⟨hc.step_within hg h.1, h.2⟩

lemma within_of_act {s : S.State} {log : Log S} (h : within D guard s log (.act a)) :
    guard s log (.act a) ∧ D.allowed (D.known a.tid log) a.op ∧ D.possible a.op a.reply :=
  ⟨h.1, h.2 a rfl⟩

end Within

end Discipline

end ChameleonVault.Concurrency
