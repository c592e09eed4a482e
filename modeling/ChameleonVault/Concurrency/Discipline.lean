import ChameleonVault.Concurrency.Interleaving

/-! What a program issues, seen from its own replies alone. A discipline follows the
replies of one thread and says which operation it may issue next; programs are checked
once, in sequence, and the check then holds at every step of every interleaving. -/

namespace ChameleonVault.Concurrency

structure Discipline (Op : Type) (Ret : Op → Type) (Q : Type) where
  start : Q
  allowed : Q → Op → Prop
  next : Q → (op : Op) → Ret op → Q
  possible : (op : Op) → Ret op → Prop

namespace Discipline

variable {Op : Type} {Ret : Op → Type} {Q α β γ ε : Type} (D : Discipline Op Ret Q)

def Follows : Q → Prog Op Ret α → (α → Q → Prop) → Prop
  | q, .done a, post => post a q
  | q, .step op next, post =>
      D.allowed q op ∧ ∀ r, D.possible op r → Follows (D.next q op r) (next r) post
  | q, .choose next, post => ∀ c, Follows q (next c) post

variable {D}

lemma Follows.mono {p : Prog Op Ret α} {q : Q} {post post' : α → Q → Prop}
    (h : D.Follows q p post) (hp : ∀ a q, post a q → post' a q) : D.Follows q p post' := by
  induction p generalizing q with
  | done a => exact hp a q h
  | step op next ih => exact ⟨h.1, fun r hr => ih r (h.2 r hr)⟩
  | choose next ih => exact fun c => ih c (h c)

lemma Follows.bind {p : Prog Op Ret α} {f : α → Prog Op Ret β} {q : Q}
    {post : β → Q → Prop} (h : D.Follows q p (fun a q => D.Follows q (f a) post)) :
    D.Follows q (p.bind f) post := by
  induction p generalizing q with
  | done a => exact h
  | step op next ih => exact ⟨h.1, fun r hr => ih r (h.2 r hr)⟩
  | choose next ih => exact fun c => ih c (h c)

variable (D) in
/-- In this state of knowledge the operation may be issued, and its reply adds nothing. -/
def NeutralAt (q : Q) (op : Op) : Prop :=
  D.allowed q op ∧ ∀ r, D.next q op r = q

variable (D) in
def Neutral (op : Op) : Prop :=
  ∀ q, D.NeutralAt q op

lemma Follows.of_uses_at {p : Prog Op Ret α} {q : Q} {post : α → Q → Prop}
    (hp : p.Uses (D.NeutralAt q)) (h : ∀ a, post a q) : D.Follows q p post := by
  induction p with
  | done a => exact h a
  | step op next ih =>
    refine ⟨hp.1.1, fun r _ => ?_⟩
    rw [hp.1.2 r]
    exact ih r (hp.2 r)
  | choose next ih => exact fun c => ih c (hp c)

lemma Follows.of_uses {p : Prog Op Ret α} {q : Q} {post : α → Q → Prop}
    (hp : p.Uses D.Neutral) (h : ∀ a, post a q) : D.Follows q p post :=
  .of_uses_at (hp.mono fun _ h => h q) h

lemma Follows.of_always {p : Prog Op Ret α} {q : Q}
    (hp : p.Uses (fun op => ∀ q, D.allowed q op)) : D.Follows q p (fun _ _ => True) := by
  induction p generalizing q with
  | done a => trivial
  | step op next ih => exact ⟨hp.1 q, fun r _ => ih r (hp.2 r)⟩
  | choose next ih => exact fun c => ih c (hp c)

section Interleave

variable {doneLeft : α → Prog Op Ret β → Prog Op Ret γ}
  {doneRight : Prog Op Ret α → β → Prog Op Ret γ} {post : γ → Q → Prop}

lemma Follows.interleaveStep {doneRight : β → Prog Op Ret γ} {op : Op} {q : Q}
    {left : Ret op → Prog Op Ret β → Prog Op Ret γ} {p : Prog Op Ret β}
    (hop : D.Neutral op) (hp : p.Uses D.Neutral) (hd : ∀ b, D.Follows q (doneRight b) post)
    (hl : ∀ r p, p.Uses D.Neutral → D.Follows q (left r p) post) :
    D.Follows q (Prog.interleaveStep doneRight op left p) post := by
  induction p with
  | done b => exact hd b
  | step op' next ih =>
    intro c
    cases c with
    | true =>
      refine ⟨(hop q).1, fun r _ => ?_⟩
      rw [(hop q).2 r]
      exact hl r _ hp
    | false =>
      refine ⟨(hp.1 q).1, fun r _ => ?_⟩
      rw [(hp.1 q).2 r]
      exact ih r (hp.2 r)
  | choose next ih => exact fun c => ih c (hp c)

lemma Follows.interleave {p : Prog Op Ret α} {p' : Prog Op Ret β} {q : Q}
    (hp : p.Uses D.Neutral) (hp' : p'.Uses D.Neutral)
    (hl : ∀ a p', p'.Uses D.Neutral → D.Follows q (doneLeft a p') post)
    (hr : ∀ p b, p.Uses D.Neutral → D.Follows q (doneRight p b) post) :
    D.Follows q (Prog.interleave doneLeft doneRight p p') post := by
  induction p generalizing p' with
  | done a => exact hl a p' hp'
  | step op next ih =>
    exact Follows.interleaveStep hp.1 hp' (fun b => hr _ b hp) (fun r p'' hp'' => ih r (hp.2 r) hp'')
  | choose next ih => exact fun c => ih c (hp c) hp'

end Interleave

lemma Follows.alongside {p : Prog Op Ret α} {p' : Prog Op Ret β} {q : Q} {post : α → Q → Prop}
    (hp : D.Follows q p post) (hp' : p'.Uses D.Neutral) :
    D.Follows q (Prog.alongside p p') post := by
  rw [Prog.alongside]
  induction p generalizing q p' with
  | done a => exact .bind (.of_uses hp' (fun _ => hp))
  | step op next ih =>
    simp only [Prog.interleave]
    induction p' with
    | done b => exact hp
    | step op' next' ih' =>
      intro c
      cases c with
      | true => exact ⟨hp.1, fun r hr => ih r (hp.2 r hr) hp'⟩
      | false =>
        refine ⟨(hp'.1 q).1, fun r _ => ?_⟩
        rw [(hp'.1 q).2 r]
        exact ih' r (hp'.2 r)
    | choose next' ih' => exact fun c => ih' c (hp' c)
  | choose next ih => exact fun c => ih c (hp c) hp'

lemma Follows.awaitAll {p : Prog Op Ret (Except ε α)} {p' : Prog Op Ret (Except ε β)} {q : Q}
    {onOk : α → β → Prog Op Ret γ} {onError : ε → Prog Op Ret γ} {post : γ → Q → Prop}
    (hp : p.Uses D.Neutral) (hp' : p'.Uses D.Neutral)
    (hok : ∀ a b, D.Follows q (onOk a b) post) (herr : ∀ e, D.Follows q (onError e) post) :
    D.Follows q (Prog.awaitAll onOk onError p p') post := by
  refine .interleave hp hp' ?_ ?_
  · rintro (e | a) p' hp'
    · exact .alongside (herr e) hp'
    · refine .bind (.of_uses hp' ?_)
      rintro (e | b)
      · exact herr e
      · exact hok a b
  · rintro p (e | b) hp
    · exact .alongside (herr e) hp
    · refine .bind (.of_uses hp ?_)
      rintro (e | a)
      · exact herr e
      · exact hok a b

section Calls

variable {Res : Op → Type} {D : Discipline Op (fun op => Except ε (Res op)) Q}

variable (D) in
def Keeps (q : Q) (x : Call Op Res ε α) (ok : α → Q → Prop) (err : ε → Q → Prop) : Prop :=
  D.Follows q x.run (fun r q => match r with
    | .ok a => ok a q
    | .error e => err e q)

variable {q : Q} {x : Call Op Res ε α} {ok ok' : α → Q → Prop} {err err' : ε → Q → Prop}

lemma Keeps.perform {op : Op} {ok : Res op → Q → Prop} (hop : D.allowed q op)
    (hok : ∀ a, D.possible op (.ok a) → ok a (D.next q op (.ok a)))
    (herr : ∀ e, D.possible op (.error e) → err e (D.next q op (.error e))) :
    D.Keeps q (perform op) ok err := by
  refine ⟨hop, ?_⟩
  rintro (e | a) hr
  · exact herr e hr
  · exact hok a hr

lemma Keeps.neutral_at (hx : x.run.Uses (D.NeutralAt q)) (hok : ∀ a, ok a q) (herr : ∀ e, err e q) :
    D.Keeps q x ok err := by
  refine Follows.of_uses_at hx ?_
  rintro (e | a)
  · exact herr e
  · exact hok a

lemma Keeps.neutral (hx : x.run.Uses D.Neutral) (hok : ∀ a, ok a q) (herr : ∀ e, err e q) :
    D.Keeps q x ok err :=
  .neutral_at (hx.mono fun _ h => h q) hok herr

lemma Keeps.pure {a : α} (h : ok a q) : D.Keeps q (pure a) ok err := h

lemma Keeps.throw {e : ε} (h : err e q) : D.Keeps q (throw e : Call Op Res ε α) ok err := h

lemma Keeps.mono (h : D.Keeps q x ok err) (hok : ∀ a q, ok a q → ok' a q)
    (herr : ∀ e q, err e q → err' e q) : D.Keeps q x ok' err' := by
  refine Follows.mono h ?_
  rintro (e | a) q hq
  · exact herr e q hq
  · exact hok a q hq

lemma Keeps.bind {f : α → Call Op Res ε β} {ok : β → Q → Prop}
    (h : D.Keeps q x (fun a q => D.Keeps q (f a) ok err) err) : D.Keeps q (x >>= f) ok err := by
  refine Follows.bind (Follows.mono h ?_)
  rintro (e | a) q hq
  · exact hq
  · exact hq

lemma Keeps.each {f : β → Call Op Res ε α} {inv : Q → Prop} (hf : ∀ b q, inv q → D.Keeps q (f b) (fun _ => inv) err)
    (bs : List β) (hq : inv q) : D.Keeps q (Call.each f bs) (fun _ => inv) err := by
  induction bs generalizing q with
  | nil => exact Keeps.pure hq
  | cons b bs ih =>
    apply Keeps.bind
    refine Keeps.mono (hf b q hq) (fun _ q' hq' => ?_) (fun _ _ => id)
    apply Keeps.bind
    exact Keeps.mono (ih hq') (fun _ _ h => Keeps.pure h) (fun _ _ => id)

lemma Keeps.tryCatch {handler : ε → Call Op Res ε α}
    (h : D.Keeps q x ok (fun e q => D.Keeps q (handler e) ok err)) :
    D.Keeps q (tryCatch x handler) ok err := by
  refine Follows.bind (Follows.mono h ?_)
  rintro (e | a) q hq
  · exact hq
  · exact hq

end Calls

end Discipline

end ChameleonVault.Concurrency
