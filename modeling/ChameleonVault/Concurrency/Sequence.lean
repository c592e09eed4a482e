import ChameleonVault.Concurrency.Program
import Mathlib.Logic.Relation

/-! Whole calls one after another, where the outside world chooses among what is allowed. -/

namespace ChameleonVault.Concurrency

section Programs

variable {Op : Type} {Ret : Op → Type} {Choice State α β : Type}

def Runs (exec : (op : Op) → Choice → State → Option (Ret op × State)) (allowed : State → Op → Choice → Prop) :
    Prog Op Ret α → State → α → State → Prop
  | .done b, s, a, t => b = a ∧ s = t
  | .step op next, s, a, t => ∃ choice reply s',
      allowed s op choice ∧ exec op choice s = some (reply, s') ∧ Runs exec allowed (next reply) s' a t
  | .choose next, s, a, t => ∃ b, Runs exec allowed (next b) s a t

/-- However the program runs, it ends so. -/
def Must (exec : (op : Op) → Choice → State → Option (Ret op × State)) (allowed : State → Op → Choice → Prop)
    (p : Prog Op Ret α) (s : State) (post : α → State → Prop) : Prop :=
  ∀ a t, Runs exec allowed p s a t → post a t

def play (exec : (op : Op) → Choice → State → Option (Ret op × State)) (allowed : State → Op → Choice → Prop)
    [∀ s op choice, Decidable (allowed s op choice)] : Prog Op Ret α → List Choice → State → Option (α × State)
  | .done a, _, s => some (a, s)
  | .step _ _, [], _ => none
  | .step op next, choice :: choices, s =>
    if allowed s op choice then
      (exec op choice s).bind fun (reply, s') => play exec allowed (next reply) choices s'
    else none
  | .choose next, choices, s => play exec allowed (next true) choices s

variable {exec : (op : Op) → Choice → State → Option (Ret op × State)} {allowed : State → Op → Choice → Prop}
  {p : Prog Op Ret α} {f : α → Prog Op Ret β} {s t : State} {a : α} {b : β} {choices : List Choice}
  {post post' : α → State → Prop} {post'' : β → State → Prop}

lemma runs_bind_iff : Runs exec allowed (p.bind f) s b t ↔
    ∃ a s', Runs exec allowed p s a s' ∧ Runs exec allowed (f a) s' b t := by
  induction p generalizing s with
  | done a =>
    constructor
    · exact fun h => ⟨a, s, ⟨rfl, rfl⟩, h⟩
    · rintro ⟨_, _, ⟨rfl, rfl⟩, h⟩
      exact h
  | step op next ih =>
    constructor
    · rintro ⟨choice, reply, s', ha, he, h⟩
      obtain ⟨a, s'', hp, hf⟩ := (ih reply).mp h
      exact ⟨a, s'', ⟨choice, reply, s', ha, he, hp⟩, hf⟩
    · rintro ⟨a, s'', ⟨choice, reply, s', ha, he, hp⟩, hf⟩
      exact ⟨choice, reply, s', ha, he, (ih reply).mpr ⟨a, s'', hp, hf⟩⟩
  | choose next ih =>
    constructor
    · rintro ⟨c, h⟩
      obtain ⟨a, s', hp, hf⟩ := (ih c).mp h
      exact ⟨a, s', ⟨c, hp⟩, hf⟩
    · rintro ⟨a, s', ⟨c, hp⟩, hf⟩
      exact ⟨c, (ih c).mpr ⟨a, s', hp, hf⟩⟩

lemma runs_of_play [∀ s op choice, Decidable (allowed s op choice)] (h : play exec allowed p choices s = some (a, t)) :
    Runs exec allowed p s a t := by
  induction p generalizing s choices with
  | done b => exact Prod.mk.inj (Option.some.inj h)
  | step op next ih =>
    cases choices with
    | nil => cases h
    | cons choice choices =>
      simp only [play, Option.ite_none_right_eq_some, Option.bind_eq_some_iff] at h
      obtain ⟨ha, ⟨reply, s'⟩, he, h⟩ := h
      exact ⟨choice, reply, s', ha, he, ih reply h⟩
  | choose next ih => exact ⟨true, ih true h⟩

lemma exists_runs (hchoice : ∀ s op, ∃ choice, allowed s op choice ∧ ∃ reply t, exec op choice s = some (reply, t))
    (p : Prog Op Ret α) (s : State) : ∃ a t, Runs exec allowed p s a t := by
  induction p generalizing s with
  | done a => exact ⟨a, s, rfl, rfl⟩
  | step op next ih =>
    obtain ⟨choice, ha, reply, s', he⟩ := hchoice s op
    obtain ⟨a, t, h⟩ := ih reply s'
    exact ⟨a, t, choice, reply, s', ha, he, h⟩
  | choose next ih =>
    obtain ⟨a, t, h⟩ := ih true s
    exact ⟨a, t, true, h⟩

/-- The program under one choice for each of its operations. -/
def drive (exec : (op : Op) → Choice → State → Option (Ret op × State)) (pick : Op → Choice) :
    Prog Op Ret α → State → Option (α × State)
  | .done a, s => some (a, s)
  | .step op next, s => (exec op (pick op) s).bind fun (reply, s') => drive exec pick (next reply) s'
  | .choose next, s => drive exec pick (next true) s

lemma runs_of_drive {pick : Op → Choice} (hpick : ∀ s op, allowed s op (pick op))
    (h : drive exec pick p s = some (a, t)) : Runs exec allowed p s a t := by
  induction p generalizing s with
  | done b => exact Prod.mk.inj (Option.some.inj h)
  | step op next ih =>
    obtain ⟨⟨reply, s'⟩, he, h⟩ := Option.bind_eq_some_iff.mp h
    exact ⟨pick op, reply, s', hpick s op, he, ih reply h⟩
  | choose next ih => exact ⟨true, ih true h⟩

/-- The program runs so, and these are the states on its way. -/
def Passes (exec : (op : Op) → Choice → State → Option (Ret op × State)) (allowed : State → Op → Choice → Prop) :
    Prog Op Ret α → State → α → List State → Prop
  | .done b, s, a, seen => b = a ∧ seen = [s]
  | .step op next, s, a, seen => ∃ choice reply s' rest, allowed s op choice ∧ exec op choice s = some (reply, s') ∧
      Passes exec allowed (next reply) s' a rest ∧ seen = s :: rest
  | .choose next, s, a, seen => ∃ b, Passes exec allowed (next b) s a seen

lemma Passes.runs {seen : List State} (h : Passes exec allowed p s a seen) : ∃ t ∈ seen, Runs exec allowed p s a t := by
  induction p generalizing s seen with
  | done b =>
    obtain ⟨rfl, rfl⟩ := h
    exact ⟨s, List.mem_singleton.mpr rfl, rfl, rfl⟩
  | step op next ih =>
    obtain ⟨choice, reply, s', rest, ha, he, h, rfl⟩ := h
    obtain ⟨t, ht, hr⟩ := ih reply h
    exact ⟨t, List.mem_cons_of_mem s ht, choice, reply, s', ha, he, hr⟩
  | choose next ih =>
    obtain ⟨c, h⟩ := h
    obtain ⟨t, ht, hr⟩ := ih c h
    exact ⟨t, ht, c, hr⟩

lemma Must.mono (h : Must exec allowed p s post) (hp : ∀ a t, post a t → post' a t) : Must exec allowed p s post' :=
  fun a t hr => hp a t (h a t hr)

lemma Must.done (h : post a s) : Must exec allowed (.done a) s post := by
  rintro _ _ ⟨rfl, rfl⟩
  exact h

lemma Must.step {op : Op} {next : Ret op → Prog Op Ret α}
    (h : ∀ choice reply s', allowed s op choice → exec op choice s = some (reply, s') →
      Must exec allowed (next reply) s' post) : Must exec allowed (.step op next) s post := by
  rintro a t ⟨choice, reply, s', ha, he, hr⟩
  exact h choice reply s' ha he a t hr

lemma Must.bind (h : Must exec allowed p s fun a s' => Must exec allowed (f a) s' post'') :
    Must exec allowed (p.bind f) s post'' := by
  intro b t hr
  obtain ⟨a, s', hp, hf⟩ := runs_bind_iff.mp hr
  exact h a s' hp b t hf

lemma Must.of_uses {P : Op → Prop} {inv : State → Prop} (hp : p.Uses P)
    (hstep : ∀ op choice reply s s', P op → allowed s op choice → inv s → exec op choice s = some (reply, s') → inv s')
    (hs : inv s) : Must exec allowed p s fun _ => inv := by
  induction p generalizing s with
  | done a => exact .done hs
  | step op next ih =>
    exact .step fun choice reply s' ha he => ih reply (hp.2 reply) (hstep op choice reply s s' hp.1 ha hs he)
  | choose next ih =>
    rintro a t ⟨c, hr⟩
    exact ih c (hp c) hs a t hr

end Programs

section Calls

variable {Op : Type} {Res : Op → Type} {Choice State ε α β : Type}
  {exec : (op : Op) → Choice → State → Option (Except ε (Res op) × State)} {allowed : State → Op → Choice → Prop}
  {s : State} {ok ok' : α → State → Prop} {err err' : ε → State → Prop} {x : Call Op Res ε α}

def MustCall (exec : (op : Op) → Choice → State → Option (Except ε (Res op) × State)) (allowed : State → Op → Choice → Prop)
    (x : Call Op Res ε α) (s : State) (ok : α → State → Prop) (err : ε → State → Prop) : Prop :=
  Must exec allowed x.run s fun r s => match r with
    | .ok a => ok a s
    | .error e => err e s

lemma MustCall.pure {a : α} (h : ok a s) : MustCall exec allowed (pure a) s ok err := Must.done h

lemma MustCall.throw {e : ε} (h : err e s) : MustCall exec allowed (throw e) s ok err := Must.done h

lemma MustCall.mono (h : MustCall exec allowed x s ok err) (hok : ∀ a s, ok a s → ok' a s)
    (herr : ∀ e s, err e s → err' e s) : MustCall exec allowed x s ok' err' := by
  refine Must.mono h ?_
  rintro (e | a) t ht
  · exact herr e t ht
  · exact hok a t ht

lemma MustCall.bind {f : α → Call Op Res ε β} {ok : β → State → Prop}
    (h : MustCall exec allowed x s (fun a s => MustCall exec allowed (f a) s ok err) err) :
    MustCall exec allowed (x >>= f) s ok err := by
  refine Must.bind (Must.mono h ?_)
  rintro (e | a) t ht
  · exact Must.done ht
  · exact ht

lemma MustCall.perform {op : Op} {ok : Res op → State → Prop}
    (hok : ∀ choice a s', allowed s op choice → exec op choice s = some (.ok a, s') → ok a s')
    (herr : ∀ choice e s', allowed s op choice → exec op choice s = some (.error e, s') → err e s') :
    MustCall exec allowed (perform op) s ok err := by
  refine Must.step ?_
  rintro choice (e | a) s' ha he
  · exact Must.done (herr choice e s' ha he)
  · exact Must.done (hok choice a s' ha he)

lemma MustCall.tryCatch {handler : ε → Call Op Res ε α}
    (h : MustCall exec allowed x s ok fun e s => MustCall exec allowed (handler e) s ok err) :
    MustCall exec allowed (tryCatch x handler) s ok err := by
  refine Must.bind (Must.mono h ?_)
  rintro (e | a) t ht
  · exact ht
  · exact Must.done ht

lemma runs_perform {op : Op} {choice : Choice} {reply : Except ε (Res op)} {t : State} (ha : allowed s op choice)
    (he : exec op choice s = some (reply, t)) : Runs exec allowed (perform op).run s reply t :=
  ⟨choice, reply, t, ha, he, rfl, rfl⟩

lemma runs_bind_of {f : α → Call Op Res ε β} {a : α} {s' t : State} {r : Except ε β}
    (hx : Runs exec allowed x.run s (.ok a) s') (hf : Runs exec allowed (f a).run s' r t) :
    Runs exec allowed (x >>= f).run s r t :=
  runs_bind_iff.mpr ⟨.ok a, s', hx, hf⟩

lemma runs_tryCatch_of {handler : ε → Call Op Res ε α} {a : α} {t : State} (hx : Runs exec allowed x.run s (.ok a) t) :
    Runs exec allowed (tryCatch x handler).run s (.ok a) t :=
  runs_bind_iff.mpr ⟨.ok a, t, hx, rfl, rfl⟩

lemma MustCall.of_uses {P : Op → Prop} {inv : State → Prop} (hp : x.run.Uses P)
    (hstep : ∀ op choice reply s s', P op → allowed s op choice → inv s → exec op choice s = some (reply, s') → inv s')
    (hs : inv s) : MustCall exec allowed x s (fun _ => inv) fun _ => inv := by
  refine Must.mono (Must.of_uses hp hstep hs) ?_
  rintro (e | a) t ht
  · exact ht
  · exact ht

end Calls

section Successions

variable {Op : Type} {Ret : Op → Type} {Choice State Job : Type}

/-- One call after another, each begun where the guard lets it. -/
def Succession (exec : (op : Op) → Choice → State → Option (Ret op × State)) (body : Job → Prog Op Ret Unit)
    (guard : State → Job → Prop) (allowed : State → Op → Choice → Prop) : State → State → Prop :=
  Relation.ReflTransGen fun s t => ∃ j, guard s j ∧ Runs exec allowed (body j) s () t

variable {exec : (op : Op) → Choice → State → Option (Ret op × State)} {body : Job → Prog Op Ret Unit}
  {guard : State → Job → Prop} {allowed : State → Op → Choice → Prop} {s t : State}

lemma Succession.keeps {inv : State → Prop}
    (hcall : ∀ s j, inv s → guard s j → Must exec allowed (body j) s fun _ => inv)
    (h : Succession exec body guard allowed s t) (hs : inv s) : inv t := by
  induction h with
  | refl => exact hs
  | tail _ hj ih =>
    obtain ⟨j, hg, hr⟩ := hj
    exact hcall _ j ih hg () _ hr

variable [∀ s op choice, Decidable (allowed s op choice)] [∀ s j, Decidable (guard s j)]

def playCalls (exec : (op : Op) → Choice → State → Option (Ret op × State)) (body : Job → Prog Op Ret Unit)
    (guard : State → Job → Prop) (allowed : State → Op → Choice → Prop)
    [∀ s op choice, Decidable (allowed s op choice)] [∀ s j, Decidable (guard s j)] :
    List (Job × List Choice) → State → Option State
  | [], s => some s
  | (j, choices) :: calls, s =>
    if guard s j then
      (play exec allowed (body j) choices s).bind fun (_, s') => playCalls exec body guard allowed calls s'
    else none

lemma succession_of_playCalls {calls : List (Job × List Choice)}
    (h : playCalls exec body guard allowed calls s = some t) : Succession exec body guard allowed s t := by
  induction calls generalizing s with
  | nil => exact Option.some.inj h ▸ .refl
  | cons call calls ih =>
    obtain ⟨j, choices⟩ := call
    simp only [playCalls, Option.ite_none_right_eq_some, Option.bind_eq_some_iff] at h
    obtain ⟨hg, ⟨u, s'⟩, hj, h⟩ := h
    exact (ih h).head ⟨j, hg, runs_of_play hj⟩

lemma exists_succession (calls : List (Job × List Choice)) (P : State → Prop) [DecidablePred P]
    (h : (playCalls exec body guard allowed calls s).any (fun t => P t) = true) :
    ∃ t, Succession exec body guard allowed s t ∧ P t := by
  obtain ⟨t, ht, hP⟩ := (Option.any_eq_true _ _).mp h
  exact ⟨t, succession_of_playCalls ht, of_decide_eq_true hP⟩

end Successions

end ChameleonVault.Concurrency
