import ChameleonVault.Concurrency.Sequence

/-! Programs that only read: run alongside one another, each ends as it does alone. -/

namespace ChameleonVault.Concurrency

section Readers

variable {Op : Type} {Ret : Op → Type} {Choice State α β γ ε : Type}

/-- In this state the operation changes nothing. -/
def Reads (exec : (op : Op) → Choice → State → Option (Ret op × State)) (allowed : State → Op → Choice → Prop)
    (s : State) (op : Op) : Prop :=
  ∀ choice reply t, allowed s op choice → exec op choice s = some (reply, t) → t = s

variable {exec : (op : Op) → Choice → State → Option (Ret op × State)} {allowed : State → Op → Choice → Prop}
  {s : State} {p : Prog Op Ret α} {q : Prog Op Ret β} {A : α → Prop} {B : β → Prop} {post : γ → State → Prop}

lemma must_of_reads (hp : p.Uses (Reads exec allowed s)) (h : Must exec allowed p s fun a _ => A a) :
    Must exec allowed p s fun a t => t = s ∧ A a := by
  have hkept : Must exec allowed p s fun _ t => t = s :=
    Must.of_uses hp (fun op choice reply t t' hop ha ht he => hop choice reply t' (ht ▸ ha) (ht ▸ he)) rfl
  exact fun a t hr => ⟨hkept a t hr, h a t hr⟩

lemma must_interleaveStep {doneRight : β → Prog Op Ret γ} {op : Op} {left : Ret op → Prog Op Ret β → Prog Op Ret γ}
    (hq : q.Uses (Reads exec allowed s)) (hB : Must exec allowed q s fun b _ => B b) (hop : Reads exec allowed s op)
    (hright : ∀ b, B b → Must exec allowed (doneRight b) s post)
    (hleft : ∀ choice reply, allowed s op choice → exec op choice s = some (reply, s) → ∀ q : Prog Op Ret β,
      q.Uses (Reads exec allowed s) → Must exec allowed q s (fun b _ => B b) → Must exec allowed (left reply q) s post) :
    Must exec allowed (Prog.interleaveStep doneRight op left q) s post := by
  induction q with
  | done b => exact hright b (hB b s ⟨rfl, rfl⟩)
  | step op' next ih =>
    rintro c t ⟨first, hrun⟩
    cases first with
    | true =>
      obtain ⟨choice, reply, s', ha, he, hrun⟩ := hrun
      obtain rfl := hop choice reply s' ha he
      exact hleft choice reply ha he _ hq hB c t hrun
    | false =>
      obtain ⟨choice, reply, s', ha, he, hrun⟩ := hrun
      obtain rfl := hq.1 choice reply s' ha he
      exact ih reply (hq.2 reply) (fun b u hr => hB b u ⟨choice, reply, s', ha, he, hr⟩) c t hrun
  | choose next ih =>
    rintro c t ⟨first, hrun⟩
    exact ih first (hq first) (fun b u hr => hB b u ⟨first, hr⟩) c t hrun

lemma must_interleave {doneLeft : α → Prog Op Ret β → Prog Op Ret γ} {doneRight : Prog Op Ret α → β → Prog Op Ret γ}
    (hp : p.Uses (Reads exec allowed s)) (hq : q.Uses (Reads exec allowed s)) (hA : Must exec allowed p s fun a _ => A a)
    (hB : Must exec allowed q s fun b _ => B b)
    (hleft : ∀ a, A a → ∀ q : Prog Op Ret β, q.Uses (Reads exec allowed s) → Must exec allowed q s (fun b _ => B b) →
      Must exec allowed (doneLeft a q) s post)
    (hright : ∀ b, B b → ∀ p : Prog Op Ret α, p.Uses (Reads exec allowed s) → Must exec allowed p s (fun a _ => A a) →
      Must exec allowed (doneRight p b) s post) :
    Must exec allowed (Prog.interleave doneLeft doneRight p q) s post := by
  induction p generalizing q with
  | done a => exact hleft a (hA a s ⟨rfl, rfl⟩) q hq hB
  | step op next ih =>
    refine must_interleaveStep hq hB hp.1 (fun b hb => hright b hb _ hp hA) fun choice reply ha he q' hq' hB' => ?_
    exact ih reply (hp.2 reply) hq' (fun a u hr => hA a u ⟨choice, reply, s, ha, he, hr⟩) hB'
  | choose next ih =>
    rintro c t ⟨first, hrun⟩
    exact ih first (hp first) hq (fun a u hr => hA a u ⟨first, hr⟩) hB c t hrun

/-- Readers that do not fail are awaited together, and what each came to is what it comes to alone. -/
lemma must_awaitAll {p : Prog Op Ret (Except ε α)} {q : Prog Op Ret (Except ε β)} {onOk : α → β → Prog Op Ret γ}
    {onError : ε → Prog Op Ret γ} (hp : p.Uses (Reads exec allowed s)) (hq : q.Uses (Reads exec allowed s))
    (hA : Must exec allowed p s fun r _ => ∃ a, r = .ok a ∧ A a)
    (hB : Must exec allowed q s fun r _ => ∃ b, r = .ok b ∧ B b)
    (hok : ∀ a b, A a → B b → Must exec allowed (onOk a b) s post) :
    Must exec allowed (Prog.awaitAll onOk onError p q) s post := by
  refine must_interleave hp hq hA hB ?_ ?_
  · rintro _ ⟨a, rfl, ha⟩ q hq hB
    refine Must.bind ((must_of_reads hq hB).mono ?_)
    rintro _ t ⟨rfl, b, rfl, hb⟩
    exact hok a b ha hb
  · rintro _ ⟨b, rfl, hb⟩ p hp hA
    refine Must.bind ((must_of_reads hp hA).mono ?_)
    rintro _ t ⟨rfl, a, rfl, ha⟩
    exact hok a b ha hb

end Readers

end ChameleonVault.Concurrency
