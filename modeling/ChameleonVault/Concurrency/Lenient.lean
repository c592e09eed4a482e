import ChameleonVault.Concurrency.Discipline

/-! Calls that keep to a discipline whatever is known when they start. -/

namespace ChameleonVault.Concurrency.Discipline

open Call

variable {Op : Type} {Res : Op → Type} {Q α β ε : Type} {D : Discipline Op (fun op => Except ε (Res op)) Q}
  {x : Call Op Res ε α} {q : Q}

variable (D) in
def Lenient (x : Call Op Res ε α) : Prop := ∀ q, D.Keeps q x (fun _ _ => True) (fun _ _ => True)

lemma Lenient.of_always (hx : x.run.Uses fun op => ∀ q, D.allowed q op) : D.Lenient x := by
  intro q
  refine Follows.mono (Follows.of_always hx) ?_
  rintro (e | a) q h <;> exact h

lemma Lenient.pure (a : α) : D.Lenient (pure a : Call Op Res ε α) := fun _ => Keeps.pure trivial

lemma Lenient.throw (e : ε) : D.Lenient (throw e : Call Op Res ε α) := fun _ => Keeps.throw trivial

lemma Lenient.bind {f : α → Call Op Res ε β} (hx : D.Lenient x) (hf : ∀ a, D.Lenient (f a)) : D.Lenient (x >>= f) := by
  intro q
  apply Keeps.bind
  exact Keeps.mono (hx q) (fun a q _ => hf a q) (fun _ _ _ => trivial)

lemma Lenient.tryCatch {handler : ε → Call Op Res ε α} (hx : D.Lenient x) (hh : ∀ e, D.Lenient (handler e)) :
    D.Lenient (tryCatch x handler) := by
  intro q
  apply Keeps.tryCatch
  exact Keeps.mono (hx q) (fun _ _ _ => trivial) (fun e q _ => hh e q)

lemma Lenient.quietly {x : Call Op Res ε Unit} (hx : D.Lenient x) : D.Lenient (quietly x) :=
  .tryCatch hx fun _ => .pure ()

end ChameleonVault.Concurrency.Discipline
