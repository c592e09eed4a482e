import ChameleonVault.Concurrency.Sequence

/-! One program that can do what another one does, from states that look alike. -/

namespace ChameleonVault.Concurrency

section Programs

variable {Op : Type} {Ret : Op → Type} {Choice State α α' β β' : Type}

def Simulates (exec : (op : Op) → Choice → State → Option (Ret op × State)) (allowed : State → Op → Choice → Prop)
    (R : State → State → Prop) (S : α → β → Prop) (p : Prog Op Ret α) (q : Prog Op Ret β) : Prop :=
  ∀ s s' a t, R s s' → Runs exec allowed p s a t → ∃ b t', Runs exec allowed q s' b t' ∧ S a b ∧ R t t'

variable {exec : (op : Op) → Choice → State → Option (Ret op × State)} {allowed : State → Op → Choice → Prop}
  {R : State → State → Prop} {S : α → β → Prop} {S' : α' → β' → Prop} {p : Prog Op Ret α} {q : Prog Op Ret β}
  {f : α → Prog Op Ret α'} {g : β → Prog Op Ret β'}

namespace Simulates

lemma done {a : α} {b : β} (h : S a b) : Simulates exec allowed R S (.done a) (.done b) := by
  rintro s s' _ _ hs ⟨rfl, rfl⟩
  exact ⟨b, s', ⟨rfl, rfl⟩, h, hs⟩

lemma step {op op' : Op} {next : Ret op → Prog Op Ret α} {next' : Ret op' → Prog Op Ret β}
    (h : ∀ s s' choice reply t, R s s' → allowed s op choice → exec op choice s = some (reply, t) →
      ∃ choice' reply' t', allowed s' op' choice' ∧ exec op' choice' s' = some (reply', t') ∧ R t t' ∧
        Simulates exec allowed R S (next reply) (next' reply')) :
    Simulates exec allowed R S (.step op next) (.step op' next') := by
  rintro s s' a t hs ⟨choice, reply, u, ha, he, hr⟩
  obtain ⟨choice', reply', u', ha', he', hu, hnext⟩ := h s s' choice reply u hs ha he
  obtain ⟨b, t', hr', hab, ht⟩ := hnext u u' a t hu hr
  exact ⟨b, t', ⟨choice', reply', u', ha', he', hr'⟩, hab, ht⟩

lemma bind (h : Simulates exec allowed R S p q) (hf : ∀ a b, S a b → Simulates exec allowed R S' (f a) (g b)) :
    Simulates exec allowed R S' (p.bind f) (q.bind g) := by
  intro s s' a' t hs hr
  obtain ⟨a, u, hp, hr⟩ := runs_bind_iff.mp hr
  obtain ⟨b, u', hq, hab, hu⟩ := h s s' a u hs hp
  obtain ⟨b', t', hr', hab', ht⟩ := hf a b hab u u' a' t hu hr
  exact ⟨b', t', runs_bind_iff.mpr ⟨b, u', hq, hr'⟩, hab', ht⟩

/-- A program with operations that do not tell the two states apart. -/
lemma of_uses {P : Op → Prop} (hp : p.Uses P)
    (hstep : ∀ op choice reply s s' t, P op → R s s' → allowed s op choice → exec op choice s = some (reply, t) →
      ∃ t', allowed s' op choice ∧ exec op choice s' = some (reply, t') ∧ R t t') :
    Simulates exec allowed R Eq p p := by
  intro s s' a t hs hr
  induction p generalizing s s' with
  | done b =>
    obtain ⟨rfl, rfl⟩ := hr
    exact ⟨b, s', ⟨rfl, rfl⟩, rfl, hs⟩
  | step op next ih =>
    obtain ⟨choice, reply, u, ha, he, hr⟩ := hr
    obtain ⟨u', ha', he', hu⟩ := hstep op choice reply s s' u hp.1 hs ha he
    obtain ⟨b, t', hr', hab, ht⟩ := ih reply (hp.2 reply) u u' hu hr
    exact ⟨b, t', ⟨choice, reply, u', ha', he', hr'⟩, hab, ht⟩
  | choose next ih =>
    obtain ⟨c, hr⟩ := hr
    obtain ⟨b, t', hr', hab, ht⟩ := ih c (hp c) s s' hs hr
    exact ⟨b, t', ⟨c, hr'⟩, hab, ht⟩

end Simulates

end Programs

section Calls

variable {Op : Type} {Res : Op → Type} {Choice State ε α α' β β' : Type}
  {exec : (op : Op) → Choice → State → Option (Except ε (Res op) × State)} {allowed : State → Op → Choice → Prop}
  {R : State → State → Prop} {S : α → β → Prop} {S' : α' → β' → Prop} {x : Call Op Res ε α} {y : Call Op Res ε β}

def OnOk (S : α → β → Prop) : Except ε α → Except ε β → Prop
  | .ok a, .ok b => S a b
  | .error e, .error e' => e = e'
  | _, _ => False

def SimulatesCall (exec : (op : Op) → Choice → State → Option (Except ε (Res op) × State))
    (allowed : State → Op → Choice → Prop) (R : State → State → Prop) (S : α → β → Prop) (x : Call Op Res ε α)
    (y : Call Op Res ε β) : Prop :=
  Simulates exec allowed R (OnOk S) x.run y.run

namespace SimulatesCall

lemma pure {a : α} {b : β} (h : S a b) : SimulatesCall exec allowed R S (pure a) (pure b) := Simulates.done h

lemma bind {f : α → Call Op Res ε α'} {g : β → Call Op Res ε β'} (h : SimulatesCall exec allowed R S x y)
    (hf : ∀ a b, S a b → SimulatesCall exec allowed R S' (f a) (g b)) :
    SimulatesCall exec allowed R S' (x >>= f) (y >>= g) := by
  refine Simulates.bind h ?_
  rintro (e | a) (e' | b) hab
  · exact Simulates.done hab
  · exact hab.elim
  · exact hab.elim
  · exact hf a b hab

lemma tryCatch {handler : ε → Call Op Res ε α} {handler' : ε → Call Op Res ε β}
    (h : SimulatesCall exec allowed R S x y) (hh : ∀ e, SimulatesCall exec allowed R S (handler e) (handler' e)) :
    SimulatesCall exec allowed R S (tryCatch x handler) (tryCatch y handler') := by
  refine Simulates.bind h ?_
  rintro (e | a) (e' | b) hab
  · obtain rfl : e = e' := hab
    exact hh e
  · exact hab.elim
  · exact hab.elim
  · exact Simulates.done hab

lemma of_uses {P : Op → Prop} (hx : x.run.Uses P)
    (hstep : ∀ op choice reply s s' t, P op → R s s' → allowed s op choice → exec op choice s = some (reply, t) →
      ∃ t', allowed s' op choice ∧ exec op choice s' = some (reply, t') ∧ R t t') :
    SimulatesCall exec allowed R Eq x x := by
  intro s s' r t hs hr
  obtain ⟨_, t', hr', rfl, ht⟩ := Simulates.of_uses hx hstep s s' r t hs hr
  refine ⟨r, t', hr', ?_, ht⟩
  cases r with
  | error e => rfl
  | ok a => rfl

end SimulatesCall

end Calls

end ChameleonVault.Concurrency
