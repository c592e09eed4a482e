import ChameleonVault.Concurrency.Program
import Mathlib.Logic.Relation
import Mathlib.Data.List.Basic

/-! Interleaved runs of programs over one shared state, with a log of what was executed.
Every operation is atomic; its reply may depend on a choice of the outside world. -/

namespace ChameleonVault.Concurrency

structure Interleaving where
  State : Type
  Op : Type
  Ret : Op → Type
  Choice : Type
  Env : Type
  Job : Type
  exec : (op : Op) → Choice → State → Option (Ret op × State)
  env : Env → State → Option State
  body : Job → Prog Op Ret Unit
  forks : (op : Op) → Ret op → List Job
  client : Job → Bool

namespace Interleaving

structure Action (S : Interleaving) where
  tid : ℕ
  op : S.Op
  choice : S.Choice
  reply : S.Ret op

inductive Entry (S : Interleaving) where
  | act (a : Action S)
  | env (e : S.Env)

/-- The newest entry comes first. -/
abbrev Log (S : Interleaving) := List (Entry S)

abbrev Guard (S : Interleaving) := S.State → Log S → Entry S → Prop

structure Config (S : Interleaving) where
  state : S.State
  threads : List (Prog S.Op S.Ret Unit)
  log : Log S

variable {S : Interleaving}

def initial (s : S.State) : Config S := ⟨s, [], []⟩

def free : Guard S := fun _ _ _ => True

instance (s : S.State) (log : Log S) (e : Entry S) : Decidable (free s log e) := isTrue trivial

inductive Step (guard : Guard S) (c : Config S) : Config S → Prop
  | start (j : S.Job) : S.client j = true → Step guard c ⟨c.state, c.threads ++ [S.body j], c.log⟩
  | pick (t : ℕ) (next : Bool → Prog S.Op S.Ret Unit) (b : Bool) :
      c.threads[t]? = some (.choose next) →
      Step guard c ⟨c.state, c.threads.set t (next b), c.log⟩
  | act (t : ℕ) (op : S.Op) (next : S.Ret op → Prog S.Op S.Ret Unit) (choice : S.Choice)
      (reply : S.Ret op) (s : S.State) :
      c.threads[t]? = some (.step op next) →
      S.exec op choice c.state = some (reply, s) →
      guard c.state c.log (.act ⟨t, op, choice, reply⟩) →
      Step guard c ⟨s, c.threads.set t (next reply) ++ (S.forks op reply).map S.body,
        .act ⟨t, op, choice, reply⟩ :: c.log⟩
  | env (e : S.Env) (s : S.State) :
      S.env e c.state = some s → guard c.state c.log (.env e) →
      Step guard c ⟨s, c.threads, .env e :: c.log⟩

def Performs (guard : Guard S) (c : Config S) (a : Action S) (d : Config S) : Prop :=
  Step guard c d ∧ d.log = .act a :: c.log

abbrev Reachable (guard : Guard S) : Config S → Config S → Prop :=
  Relation.ReflTransGen (Step guard)

lemma Step.mono {guard guard' : Guard S} (hg : ∀ s log e, guard s log e → guard' s log e)
    {c d : Config S} (h : Step guard c d) : Step guard' c d := by
  cases h with
  | start j hj => exact .start j hj
  | pick t next b hp => exact .pick t next b hp
  | act t op next choice reply s hp he hk => exact .act t op next choice reply s hp he (hg _ _ _ hk)
  | env e s he hk => exact .env e s he (hg _ _ _ hk)

lemma Step.log_suffix {guard : Guard S} {c d : Config S} (h : Step guard c d) : c.log <:+ d.log := by
  cases h with
  | start j hj => exact List.suffix_rfl
  | pick t next b hp => exact List.suffix_rfl
  | act t op next choice reply s hp he hk => exact List.suffix_cons _ _
  | env e s he hk => exact List.suffix_cons _ _

lemma Reachable.log_suffix {guard : Guard S} {c d : Config S} (h : Reachable guard c d) : c.log <:+ d.log := by
  induction h with
  | refl => exact List.suffix_rfl
  | tail _ hs ih => exact ih.trans hs.log_suffix

section Uses

variable {guard : Guard S} {P : S.Op → Prop} {s : S.State} {c d : Config S} {a : Action S}

lemma Reachable.uses (hbody : ∀ j, S.client j = true → (S.body j).Uses P) (hforks : ∀ op r, S.forks op r = [])
    (h : Reachable guard (initial s) c) : ∀ p ∈ c.threads, p.Uses P := by
  induction h with
  | refl => exact fun p hp => absurd hp List.not_mem_nil
  | tail _ hs ih =>
    intro p hp
    cases hs with
    | start j hj =>
      rcases List.mem_append.mp hp with hp | hp
      · exact ih p hp
      · obtain rfl := List.mem_singleton.mp hp
        exact hbody j hj
    | pick t next b ht =>
      rcases List.mem_or_eq_of_mem_set hp with hp | rfl
      · exact ih p hp
      · exact ih _ (List.mem_of_getElem? ht) b
    | act t op next choice reply s' ht he hg =>
      simp only [hforks, List.map_nil, List.append_nil] at hp
      rcases List.mem_or_eq_of_mem_set hp with hp | rfl
      · exact ih p hp
      · exact (ih _ (List.mem_of_getElem? ht)).2 reply
    | env e s' he hg => exact ih p hp

lemma Performs.exec (h : Performs guard c a d) : (∃ next, c.threads[a.tid]? = some (.step a.op next)) ∧
    S.exec a.op a.choice c.state = some (a.reply, d.state) := by
  obtain ⟨hs, hl⟩ := h
  cases hs with
  | start j hj => simp at hl
  | pick t next b hp => simp at hl
  | act t op next choice reply s hp he hk =>
    obtain rfl := Entry.act.inj (List.cons.inj hl).1
    exact ⟨⟨next, hp⟩, he⟩
  | env e s he hk => cases (List.cons.inj hl).1

lemma Performs.uses (hbody : ∀ j, S.client j = true → (S.body j).Uses P) (hforks : ∀ op r, S.forks op r = [])
    (hc : Reachable guard (initial s) c) (h : Performs guard c a d) : P a.op := by
  obtain ⟨⟨next, hp⟩, -⟩ := h.exec
  exact (hc.uses hbody hforks _ (List.mem_of_getElem? hp)).1

end Uses

inductive Event (S : Interleaving) where
  | start (j : S.Job)
  | pick (t : ℕ) (b : Bool)
  | act (t : ℕ) (choice : S.Choice)
  | env (e : S.Env)

def advance (guard : Guard S) [∀ s log e, Decidable (guard s log e)] (c : Config S) :
    Event S → Option (Config S)
  | .start j => if S.client j then some ⟨c.state, c.threads ++ [S.body j], c.log⟩ else none
  | .pick t b =>
    match c.threads[t]? with
    | some (.choose next) => some ⟨c.state, c.threads.set t (next b), c.log⟩
    | _ => none
  | .act t choice =>
    match c.threads[t]? with
    | some (.step op next) =>
      match S.exec op choice c.state with
      | some (reply, s) =>
        if guard c.state c.log (.act ⟨t, op, choice, reply⟩) then
          some ⟨s, c.threads.set t (next reply) ++ (S.forks op reply).map S.body,
            .act ⟨t, op, choice, reply⟩ :: c.log⟩
        else none
      | none => none
    | _ => none
  | .env e =>
    match S.env e c.state with
    | some s => if guard c.state c.log (.env e) then some ⟨s, c.threads, .env e :: c.log⟩ else none
    | none => none

def replay (guard : Guard S) [∀ s log e, Decidable (guard s log e)] :
    List (Event S) → Config S → Option (Config S)
  | [], c => some c
  | e :: es, c =>
    match advance guard c e with
    | some d => replay guard es d
    | none => none

section Replay

variable {guard : Guard S} [∀ s log e, Decidable (guard s log e)]

lemma step_of_advance {c d : Config S} {e : Event S} (h : advance guard c e = some d) :
    Step guard c d := by
  cases e with
  | start j =>
    simp only [advance, Option.ite_none_right_eq_some, Option.some.injEq] at h
    obtain ⟨hj, rfl⟩ := h
    exact .start j hj
  | pick t b =>
    simp only [advance] at h
    split at h <;> try contradiction
    rename_i next hp
    obtain rfl := Option.some.inj h
    exact .pick t next b hp
  | act t choice =>
    simp only [advance] at h
    split at h <;> try contradiction
    rename_i op next hp
    split at h <;> try contradiction
    rename_i reply s he
    simp only [Option.ite_none_right_eq_some, Option.some.injEq] at h
    obtain ⟨hg, rfl⟩ := h
    exact .act t op next choice reply s hp he hg
  | env e =>
    simp only [advance] at h
    split at h <;> try contradiction
    rename_i s he
    simp only [Option.ite_none_right_eq_some, Option.some.injEq] at h
    obtain ⟨hg, rfl⟩ := h
    exact .env e s he hg

lemma reachable_of_replay {es : List (Event S)} {c d : Config S}
    (h : replay guard es c = some d) : Reachable guard c d := by
  induction es generalizing c with
  | nil => exact Option.some.inj h ▸ .refl
  | cons e es ih =>
    simp only [replay] at h
    split at h <;> try contradiction
    rename_i c' hc
    exact (ih h).head (step_of_advance hc)

lemma exists_reachable (es : List (Event S)) {c : Config S} (P : Config S → Prop) [DecidablePred P]
    (h : (replay guard es c).any (fun d => P d) = true) : ∃ d, Reachable guard c d ∧ P d := by
  obtain ⟨d, hd, hp⟩ := (Option.any_eq_true _ _).mp h
  exact ⟨d, reachable_of_replay hd, of_decide_eq_true hp⟩

lemma exists_reachable_later (es es' : List (Event S)) {c : Config S} (P : Config S → Config S → Prop)
    [∀ d, DecidablePred (P d)]
    (h : (replay guard es c).any (fun d => (replay guard es' d).any (fun e => P d e)) = true) :
    ∃ d e, Reachable guard c d ∧ Reachable guard d e ∧ P d e := by
  obtain ⟨d, hd, h'⟩ := (Option.any_eq_true _ _).mp h
  obtain ⟨e, he, hp⟩ := exists_reachable es' (P d) h'
  exact ⟨d, e, reachable_of_replay hd, he, hp⟩

lemma exists_performs (es : List (Event S)) (t : ℕ) (choice : S.Choice) {c : Config S}
    (P : Config S → Action S → Config S → Prop) [∀ d a e, Decidable (P d a e)]
    (h : (replay guard es c).any (fun d => (advance guard d (.act t choice)).any (fun e => match e.log with
      | .act a :: _ => P d a e
      | _ => false)) = true) :
    ∃ d a e, Reachable guard c d ∧ Performs guard d a e ∧ P d a e := by
  obtain ⟨d, hd, h'⟩ := (Option.any_eq_true _ _).mp h
  obtain ⟨e, he, hp⟩ := (Option.any_eq_true _ _).mp h'
  have hs : Step guard d e := step_of_advance he
  simp only [advance] at he
  split at he <;> try contradiction
  split at he <;> try contradiction
  simp only [Option.ite_none_right_eq_some, Option.some.injEq] at he
  obtain ⟨-, rfl⟩ := he
  exact ⟨d, _, _, reachable_of_replay hd, ⟨hs, rfl⟩, of_decide_eq_true hp⟩

end Replay

end Interleaving

end ChameleonVault.Concurrency
