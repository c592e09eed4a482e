import ChameleonVault.Concurrency.Discipline

/-! What a program can achieve when it runs alone and the outside world plays along. -/

namespace ChameleonVault.Concurrency

open Interleaving

section Can

variable {Op : Type} {Ret : Op → Type} {Choice State α β : Type}

def Can (exec : (op : Op) → Choice → State → Option (Ret op × State)) (good : (op : Op) → Ret op → Prop) :
    Prog Op Ret α → State → (α → State → Prop) → Prop
  | .done a, s, post => post a s
  | .step op next, s, post => ∃ choice reply s',
      exec op choice s = some (reply, s') ∧ good op reply ∧ Can exec good (next reply) s' post
  | .choose next, s, post => ∃ b, Can exec good (next b) s post

variable {exec : (op : Op) → Choice → State → Option (Ret op × State)} {good : (op : Op) → Ret op → Prop}

lemma Can.mono {p : Prog Op Ret α} {s : State} {post post' : α → State → Prop}
    (h : Can exec good p s post) (hp : ∀ a s, post a s → post' a s) : Can exec good p s post' := by
  induction p generalizing s with
  | done a => exact hp a s h
  | step op next ih =>
    obtain ⟨choice, reply, s', he, hg, h⟩ := h
    exact ⟨choice, reply, s', he, hg, ih reply h⟩
  | choose next ih =>
    obtain ⟨b, h⟩ := h
    exact ⟨b, ih b h⟩

lemma Can.exists_result {p : Prog Op Ret α} {s : State} {post : α → State → Prop} (h : Can exec good p s post) :
    ∃ a s', post a s' ∧ Can exec good p s (fun b _ => b = a) := by
  induction p generalizing s with
  | done a => exact ⟨a, s, h, rfl⟩
  | step op next ih =>
    obtain ⟨choice, reply, s', he, hg, h⟩ := h
    obtain ⟨a, t, hp, ha⟩ := ih reply h
    exact ⟨a, t, hp, choice, reply, s', he, hg, ha⟩
  | choose next ih =>
    obtain ⟨b, h⟩ := h
    obtain ⟨a, t, hp, ha⟩ := ih b h
    exact ⟨a, t, hp, b, ha⟩

lemma Can.of_follows {Q : Type} (D : Concurrency.Discipline Op Ret Q) (valid : State → Prop)
    (hexec : ∀ op choice s reply s', valid s → exec op choice s = some (reply, s') → D.possible op reply ∧ valid s')
    {p : Prog Op Ret α} {q : Q} {s : State} {good' : α → Q → Prop} {post : α → State → Prop}
    (hf : D.Follows q p good') (hs : valid s) (h : Can exec good p s post) :
    ∃ a q s, good' a q ∧ post a s := by
  induction p generalizing q s with
  | done a => exact ⟨a, q, s, hf, h⟩
  | step op next ih =>
    obtain ⟨choice, reply, s', he, -, h⟩ := h
    obtain ⟨hp, hs'⟩ := hexec op choice s reply s' hs he
    exact ih reply (hf.2 reply hp) hs' h
  | choose next ih =>
    obtain ⟨b, h⟩ := h
    exact ih b (hf b) hs h

lemma Can.bind {p : Prog Op Ret α} {f : α → Prog Op Ret β} {s : State} {post : β → State → Prop}
    (h : Can exec good p s (fun a s => Can exec good (f a) s post)) : Can exec good (p.bind f) s post := by
  induction p generalizing s with
  | done a => exact h
  | step op next ih =>
    obtain ⟨choice, reply, s', he, hg, h⟩ := h
    exact ⟨choice, reply, s', he, hg, ih reply h⟩
  | choose next ih =>
    obtain ⟨b, h⟩ := h
    exact ⟨b, ih b h⟩

lemma can_bind_iff {p : Prog Op Ret α} {f : α → Prog Op Ret β} {s : State} {post : β → State → Prop} :
    Can exec good (p.bind f) s post ↔ ∃ a t, Can exec good p s (fun b u => b = a ∧ u = t) ∧ Can exec good (f a) t post := by
  induction p generalizing s with
  | done a =>
    constructor
    · exact fun h => ⟨a, s, ⟨rfl, rfl⟩, h⟩
    · rintro ⟨_, _, ⟨rfl, rfl⟩, h⟩
      exact h
  | step op next ih =>
    constructor
    · rintro ⟨choice, reply, s', he, hg, h⟩
      obtain ⟨a, t, hp, hf⟩ := (ih reply).mp h
      exact ⟨a, t, ⟨choice, reply, s', he, hg, hp⟩, hf⟩
    · rintro ⟨a, t, ⟨choice, reply, s', he, hg, hp⟩, hf⟩
      exact ⟨choice, reply, s', he, hg, (ih reply).mpr ⟨a, t, hp, hf⟩⟩
  | choose next ih =>
    constructor
    · rintro ⟨b, h⟩
      obtain ⟨a, t, hp, hf⟩ := (ih b).mp h
      exact ⟨a, t, ⟨b, hp⟩, hf⟩
    · rintro ⟨a, t, ⟨b, hp⟩, hf⟩
      exact ⟨b, (ih b).mpr ⟨a, t, hp, hf⟩⟩

end Can

section Calls

variable {Op : Type} {Res : Op → Type} {Choice State ε α β : Type}
  {exec : (op : Op) → Choice → State → Option (Except ε (Res op) × State)}
  {good : (op : Op) → Except ε (Res op) → Prop} {s : State}

def CanCall (exec : (op : Op) → Choice → State → Option (Except ε (Res op) × State))
    (good : (op : Op) → Except ε (Res op) → Prop) (x : Call Op Res ε α) (s : State) (ok : α → State → Prop) : Prop :=
  Can exec good x.run s fun r s => match r with
    | .ok a => ok a s
    | .error _ => False

lemma CanCall.pure {a : α} {ok : α → State → Prop} (h : ok a s) : CanCall exec good (pure a) s ok := h

lemma CanCall.mono {x : Call Op Res ε α} {ok ok' : α → State → Prop} (h : CanCall exec good x s ok)
    (hok : ∀ a s, ok a s → ok' a s) : CanCall exec good x s ok' := by
  refine Can.mono h ?_
  rintro (e | a) s hs
  · exact hs
  · exact hok a s hs

lemma CanCall.bind {x : Call Op Res ε α} {f : α → Call Op Res ε β} {ok : β → State → Prop}
    (h : CanCall exec good x s (fun a s => CanCall exec good (f a) s ok)) : CanCall exec good (x >>= f) s ok := by
  refine Can.bind (Can.mono h ?_)
  rintro (e | a) s hs
  · exact hs.elim
  · exact hs

lemma CanCall.perform {op : Op} {choice : Choice} {a : Res op} {s' : State} {ok : Res op → State → Prop}
    (he : exec op choice s = some (.ok a, s')) (hg : good op (.ok a)) (h : ok a s') :
    CanCall exec good (perform op) s ok :=
  ⟨choice, .ok a, s', he, hg, h⟩

lemma CanCall.tryCatch {x : Call Op Res ε α} {handler : ε → Call Op Res ε α} {ok : α → State → Prop}
    (h : CanCall exec good x s ok) : CanCall exec good (tryCatch x handler) s ok := by
  refine Can.bind (Can.mono h ?_)
  rintro (e | a) s hs
  · exact hs.elim
  · exact hs

def Returns (exec : (op : Op) → Choice → State → Option (Except ε (Res op) × State)) (x : Call Op Res ε α)
    (s : State) (a : α) : Prop :=
  Can exec (fun _ _ => True) x.run s fun r _ => r = .ok a

/-- The program may return `a` and leave the state `s'`. -/
def Ends (exec : (op : Op) → Choice → State → Option (Except ε (Res op) × State)) (x : Call Op Res ε α)
    (s : State) (a : α) (s' : State) : Prop :=
  Can exec (fun _ _ => True) x.run s fun r t => r = .ok a ∧ t = s'

lemma ends_pure_iff {a b : α} {s' : State} : Ends exec (pure a) s b s' ↔ a = b ∧ s = s' := by
  constructor
  · rintro ⟨h, rfl⟩
    exact ⟨Except.ok.inj h, rfl⟩
  · rintro ⟨rfl, rfl⟩
    exact ⟨rfl, rfl⟩

lemma ends_perform_iff {op : Op} {a : Res op} {s' : State} :
    Ends exec (perform op) s a s' ↔ ∃ choice, exec op choice s = some (.ok a, s') := by
  constructor
  · rintro ⟨choice, reply, t, he, -, rfl, rfl⟩
    exact ⟨choice, he⟩
  · rintro ⟨choice, he⟩
    exact ⟨choice, .ok a, s', he, trivial, rfl, rfl⟩

lemma ends_bind_iff {x : Call Op Res ε α} {f : α → Call Op Res ε β} {b : β} {s' : State} :
    Ends exec (x >>= f) s b s' ↔ ∃ a t, Ends exec x s a t ∧ Ends exec (f a) t b s' := by
  refine (can_bind_iff (p := x.run)).trans ⟨?_, ?_⟩
  · rintro ⟨r, t, hx, hf⟩
    cases r with
    | error e => cases hf.1
    | ok a => exact ⟨a, t, hx, hf⟩
  · rintro ⟨a, t, hx, hf⟩
    exact ⟨.ok a, t, hx, hf⟩

attribute [irreducible] Ends

lemma CanCall.exists_returns {x : Call Op Res ε α} {ok : α → State → Prop}
    (h : CanCall exec (fun _ _ => True) x s ok) : ∃ a, Returns exec x s a := by
  obtain ⟨r, s', hp, hr⟩ := Can.exists_result h
  cases r with
  | error e => exact hp.elim
  | ok a => exact ⟨a, hr⟩

end Calls

section Evaluate

variable {Op : Type} {Ret Res : Op → Type} {Choice State ε α β : Type}

/-- What a program comes to when every operation meets with the same choice. -/
def evaluate (exec : (op : Op) → Choice → State → Option (Ret op × State)) (choice : Choice) :
    Prog Op Ret α → State → Option (α × State)
  | .done a, s => some (a, s)
  | .step op next, s => (exec op choice s).bind fun (reply, s') => evaluate exec choice (next reply) s'
  | .choose next, s => evaluate exec choice (next true) s

lemma evaluate_bind {exec : (op : Op) → Choice → State → Option (Ret op × State)} {choice : Choice}
    (p : Prog Op Ret α) (f : α → Prog Op Ret β) (s : State) :
    evaluate exec choice (p.bind f) s = (evaluate exec choice p s).bind fun (a, s') => evaluate exec choice (f a) s' := by
  induction p generalizing s with
  | done a => rfl
  | step op next ih => simp only [Prog.bind, evaluate, ih, Option.bind_assoc]
  | choose next ih => exact ih true s

variable {exec : (op : Op) → Choice → State → Option (Except ε (Res op) × State)} {choice : Choice} {s s' : State}
  {e : Except ε β}

lemma evaluate_perform_bind {op : Op} {f : Res op → Call Op Res ε β}
    (h : evaluate exec choice (perform op >>= f).run s = some (e, s')) :
    (∃ a t, exec op choice s = some (.ok a, t) ∧ evaluate exec choice (f a).run t = some (e, s')) ∨
      ∃ err, exec op choice s = some (.error err, s') ∧ e = .error err := by
  obtain ⟨⟨reply, t⟩, he, h⟩ := Option.bind_eq_some_iff.mp h
  cases reply with
  | error err =>
    obtain ⟨rfl, rfl⟩ := Prod.mk.inj (Option.some.inj h)
    exact .inr ⟨err, he, rfl⟩
  | ok a => exact .inl ⟨a, t, he, h⟩

end Evaluate

section Runs

variable {S : Interleaving} {good : (op : S.Op) → S.Ret op → Prop} {guard : Guard S}

lemma Can.run (hg : ∀ s log a, good a.op a.reply → guard s log (.act a)) {p : Prog S.Op S.Ret Unit}
    {c : Config S} {t : ℕ} {post : Unit → S.State → Prop} (ht : c.threads[t]? = some p)
    (h : Can S.exec good p c.state post) : ∃ c', Reachable guard c c' ∧ post () c'.state := by
  induction p generalizing c with
  | done a => exact ⟨c, .refl, h⟩
  | step op next ih =>
    obtain ⟨choice, reply, s, he, hk, h⟩ := h
    have hlt : t < c.threads.length := (List.getElem?_eq_some_iff.mp ht).1
    have hstep := Step.act t op next choice reply s ht he (hg c.state c.log ⟨t, op, choice, reply⟩ hk)
    have hnext : (c.threads.set t (next reply) ++ (S.forks op reply).map S.body)[t]? = some (next reply) := by
      rw [List.getElem?_append_left (by simpa using hlt), List.getElem?_set_self hlt]
    obtain ⟨c', hr, hp⟩ := ih reply (c := ⟨s, _, .act ⟨t, op, choice, reply⟩ :: c.log⟩) hnext h
    exact ⟨c', hr.head hstep, hp⟩
  | choose next ih =>
    obtain ⟨b, h⟩ := h
    have hlt : t < c.threads.length := (List.getElem?_eq_some_iff.mp ht).1
    have hstep : Step guard c ⟨c.state, c.threads.set t (next b), c.log⟩ := .pick t next b ht
    have hnext : (c.threads.set t (next b))[t]? = some (next b) := List.getElem?_set_self hlt
    obtain ⟨c', hr, hp⟩ := ih b (c := ⟨c.state, _, c.log⟩) hnext h
    exact ⟨c', hr.head hstep, hp⟩

def Leads (guard : Guard S) (P P' : S.State → Prop) : Prop :=
  ∀ c : Config S, P c.state → ∃ c', Reachable guard c c' ∧ P' c'.state

variable {P P' P'' : S.State → Prop}

lemma Leads.trans (h : Leads guard P P') (h' : Leads guard P' P'') : Leads guard P P'' := by
  intro c hc
  obtain ⟨c', hr, hc'⟩ := h c hc
  obtain ⟨c'', hr', hc''⟩ := h' c' hc'
  exact ⟨c'', hr.trans hr', hc''⟩

lemma Leads.either (h : Leads guard P P'') (h' : Leads guard P' P'') : Leads guard (fun s => P s ∨ P' s) P'' := by
  rintro c (hc | hc)
  · exact h c hc
  · exact h' c hc

lemma Leads.refl (guard : Guard S) (P : S.State → Prop) : Leads guard P P :=
  fun c hc => ⟨c, .refl, hc⟩

lemma leads_of_can (hg : ∀ s log a, good a.op a.reply → guard s log (.act a)) {j : S.Job} (hj : S.client j = true)
    (h : ∀ s, P s → Can S.exec good (S.body j) s (fun _ => P')) : Leads guard P P' := by
  intro c hc
  have ht : (c.threads ++ [S.body j])[c.threads.length]? = some (S.body j) := by simp
  obtain ⟨c', hr, hp⟩ := Can.run hg (c := ⟨c.state, c.threads ++ [S.body j], c.log⟩) ht (h c.state hc)
  exact ⟨c', hr.head (.start j hj), hp⟩

end Runs

end ChameleonVault.Concurrency
