import Mathlib.Logic.Basic

/-! Sequential programs over atomic operations. A program waits for the reply of
each operation it issues, and may run two branches of its own concurrently. -/

namespace ChameleonVault.Concurrency

inductive Prog (Op : Type) (Ret : Op → Type) (α : Type) where
  | done (a : α)
  | step (op : Op) (next : Ret op → Prog Op Ret α)
  | choose (next : Bool → Prog Op Ret α)

namespace Prog

variable {Op : Type} {Ret : Op → Type} {α β γ ε : Type}

def bind : Prog Op Ret α → (α → Prog Op Ret β) → Prog Op Ret β
  | done a, f => f a
  | step op next, f => step op (fun r => (next r).bind f)
  | choose next, f => choose (fun b => (next b).bind f)

instance : Monad (Prog Op Ret) where
  pure := done
  bind := bind

@[simp] lemma pure_eq (a : α) : (pure a : Prog Op Ret α) = done a := rfl
@[simp] lemma bind_eq (p : Prog Op Ret α) (f : α → Prog Op Ret β) : p >>= f = p.bind f := rfl

def isDone : Prog Op Ret α → Bool
  | done _ => true
  | _ => false

def interleaveStep (doneRight : β → Prog Op Ret γ) (op : Op)
    (left : Ret op → Prog Op Ret β → Prog Op Ret γ) : Prog Op Ret β → Prog Op Ret γ
  | done b => doneRight b
  | step op' next => choose fun c =>
      if c then step op (fun r => left r (step op' next))
      else step op' (fun r => interleaveStep doneRight op left (next r))
  | choose next => choose (fun c => interleaveStep doneRight op left (next c))

/-- Run two programs in any interleaving of their operations. The branch that ends
first hands its result, and what is left of the other one, to a continuation. -/
def interleave (doneLeft : α → Prog Op Ret β → Prog Op Ret γ)
    (doneRight : Prog Op Ret α → β → Prog Op Ret γ) :
    Prog Op Ret α → Prog Op Ret β → Prog Op Ret γ
  | done a, q => doneLeft a q
  | step op next, q =>
      interleaveStep (doneRight (step op next)) op
        (fun r => interleave doneLeft doneRight (next r)) q
  | choose next, q => choose (fun c => interleave doneLeft doneRight (next c) q)

def alongside (p : Prog Op Ret α) (q : Prog Op Ret β) : Prog Op Ret α :=
  interleave (fun a q => q.bind (fun _ => done a)) (fun p _ => p) p q

def awaitAll (onOk : α → β → Prog Op Ret γ) (onError : ε → Prog Op Ret γ)
    (p : Prog Op Ret (Except ε α)) (q : Prog Op Ret (Except ε β)) : Prog Op Ret γ :=
  interleave
    (fun a q => match a with
      | .ok a => q.bind fun
        | .ok b => onOk a b
        | .error e => onError e
      | .error e => alongside (onError e) q)
    (fun p b => match b with
      | .ok b => p.bind fun
        | .ok a => onOk a b
        | .error e => onError e
      | .error e => alongside (onError e) p)
    p q

/-- The same program over other operations, whose replies it translates back. -/
def rename {Op' : Type} {Ret' : Op' → Type} (f : Op → Op') (back : ∀ op, Ret' (f op) → Ret op) :
    Prog Op Ret α → Prog Op' Ret' α
  | done a => done a
  | step op next => step (f op) (fun r => (next (back op r)).rename f back)
  | choose next => choose (fun c => (next c).rename f back)

def Uses (P : Op → Prop) : Prog Op Ret α → Prop
  | done _ => True
  | step op next => P op ∧ ∀ r, (next r).Uses P
  | choose next => ∀ c, (next c).Uses P

variable {P : Op → Prop}

lemma Uses.mono {P' : Op → Prop} {p : Prog Op Ret α} (hp : p.Uses P) (h : ∀ op, P op → P' op) : p.Uses P' := by
  induction p with
  | done a => trivial
  | step op next ih => exact ⟨h op hp.1, fun r => ih r (hp.2 r)⟩
  | choose next ih => exact fun c => ih c (hp c)

lemma Uses.any (p : Prog Op Ret α) : p.Uses fun _ => True := by
  induction p with
  | done a => trivial
  | step op next ih => exact ⟨trivial, ih⟩
  | choose next ih => exact ih

lemma Uses.rename {Op' : Type} {Ret' : Op' → Type} {f : Op → Op'} {back : ∀ op, Ret' (f op) → Ret op} {P : Op' → Prop}
    {p : Prog Op Ret α} (h : p.Uses fun op => P (f op)) : (p.rename f back).Uses P := by
  induction p with
  | done a => trivial
  | step op next ih => exact ⟨h.1, fun r => ih (back op r) (h.2 (back op r))⟩
  | choose next ih => exact fun c => ih c (h c)

lemma Uses.bind {p : Prog Op Ret α} {f : α → Prog Op Ret β} (hp : p.Uses P)
    (hf : ∀ a, (f a).Uses P) : (p.bind f).Uses P := by
  induction p with
  | done a => exact hf a
  | step op next ih => exact ⟨hp.1, fun r => ih r (hp.2 r)⟩
  | choose next ih => exact fun c => ih c (hp c)

lemma Uses.interleaveStep {doneRight : β → Prog Op Ret γ} {op : Op}
    {left : Ret op → Prog Op Ret β → Prog Op Ret γ} {p : Prog Op Ret β} (hop : P op)
    (hp : p.Uses P) (hd : ∀ b, (doneRight b).Uses P)
    (hl : ∀ r p, p.Uses P → (left r p).Uses P) : (interleaveStep doneRight op left p).Uses P := by
  induction p with
  | done b => exact hd b
  | step op' next ih =>
    intro c
    cases c with
    | true => exact ⟨hop, fun r => hl r _ hp⟩
    | false => exact ⟨hp.1, fun r => ih r (hp.2 r)⟩
  | choose next ih => exact fun c => ih c (hp c)

lemma Uses.interleave {doneLeft : α → Prog Op Ret β → Prog Op Ret γ}
    {doneRight : Prog Op Ret α → β → Prog Op Ret γ} {p : Prog Op Ret α} {q : Prog Op Ret β}
    (hp : p.Uses P) (hq : q.Uses P) (hl : ∀ a q, q.Uses P → (doneLeft a q).Uses P)
    (hr : ∀ p b, p.Uses P → (doneRight p b).Uses P) :
    (interleave doneLeft doneRight p q).Uses P := by
  induction p generalizing q with
  | done a => exact hl a q hq
  | step op next ih =>
    exact .interleaveStep hp.1 hq (fun b => hr _ b hp) (fun r q' hq' => ih r (hp.2 r) hq')
  | choose next ih => exact fun c => ih c (hp c) hq

lemma Uses.alongside {p : Prog Op Ret α} {q : Prog Op Ret β} (hp : p.Uses P) (hq : q.Uses P) :
    (alongside p q).Uses P :=
  .interleave hp hq (fun _ _ hq => .bind hq (fun _ => trivial)) (fun _ _ hp => hp)

lemma Uses.awaitAll {onOk : α → β → Prog Op Ret γ} {onError : ε → Prog Op Ret γ}
    {p : Prog Op Ret (Except ε α)} {q : Prog Op Ret (Except ε β)} (hp : p.Uses P)
    (hq : q.Uses P) (hok : ∀ a b, (onOk a b).Uses P) (herr : ∀ e, (onError e).Uses P) :
    (awaitAll onOk onError p q).Uses P := by
  refine .interleave hp hq ?_ ?_
  · rintro (e | a) q hq
    · exact .alongside (herr e) hq
    · refine .bind hq ?_
      rintro (e | b)
      · exact herr e
      · exact hok a b
  · rintro p (e | b) hp
    · exact .alongside (herr e) hp
    · refine .bind hp ?_
      rintro (e | a)
      · exact herr e
      · exact hok a b

end Prog

abbrev Call (Op : Type) (Res : Op → Type) (ε α : Type) :=
  ExceptT ε (Prog Op (fun op => Except ε (Res op))) α

def perform {Op : Type} {Res : Op → Type} {ε : Type} (op : Op) : Call Op Res ε (Res op) :=
  ExceptT.mk (.step op .done)

namespace Call

variable {Op : Type} {Res : Op → Type} {ε α β : Type} {P : Op → Prop}

def each (f : α → Call Op Res ε β) : List α → Call Op Res ε (List β)
  | [] => pure []
  | a :: as => do
    let b ← f a
    let bs ← each f as
    return b :: bs

def orThrow (r : Except ε α) : Call Op Res ε α := ExceptT.mk (.done r)

def quietly (x : Call Op Res ε Unit) : Call Op Res ε Unit :=
  tryCatch x fun _ => pure ()

lemma uses_perform {op : Op} (h : P op) : (perform op : Call Op Res ε (Res op)).run.Uses P :=
  ⟨h, fun _ => trivial⟩

lemma uses_pure (a : α) : (pure a : Call Op Res ε α).run.Uses P := trivial

lemma uses_throw (e : ε) : (throw e : Call Op Res ε α).run.Uses P := trivial

lemma uses_bind {x : Call Op Res ε α} {f : α → Call Op Res ε β} (hx : x.run.Uses P)
    (hf : ∀ a, (f a).run.Uses P) : (x >>= f).run.Uses P := by
  refine Prog.Uses.bind hx ?_
  rintro (e | a)
  · trivial
  · exact hf a

lemma uses_tryCatch {x : Call Op Res ε α} {handler : ε → Call Op Res ε α} (hx : x.run.Uses P)
    (hh : ∀ e, (handler e).run.Uses P) : (tryCatch x handler).run.Uses P := by
  refine Prog.Uses.bind hx ?_
  rintro (e | a)
  · exact hh e
  · trivial

lemma uses_each_mem {f : α → Call Op Res ε β} {as : List α} (hf : ∀ a ∈ as, (f a).run.Uses P) :
    (each f as).run.Uses P := by
  induction as with
  | nil => exact uses_pure []
  | cons a as ih =>
    obtain ⟨ha, has⟩ := List.forall_mem_cons.mp hf
    exact uses_bind ha (fun b => uses_bind (ih has) (fun bs => uses_pure (b :: bs)))

lemma uses_each {f : α → Call Op Res ε β} (hf : ∀ a, (f a).run.Uses P) (as : List α) : (each f as).run.Uses P :=
  uses_each_mem fun a _ => hf a

lemma uses_orThrow (r : Except ε α) : (orThrow r : Call Op Res ε α).run.Uses P := trivial

lemma uses_quietly {x : Call Op Res ε Unit} (hx : x.run.Uses P) : (quietly x).run.Uses P :=
  uses_tryCatch hx (fun _ => uses_pure ())

end Call

end ChameleonVault.Concurrency
