import ChameleonVault.Concurrency.Discipline
import Mathlib.Order.Monotone.Defs

/-! Disciplines whose knowledge only grows. What one part of a program has learnt stays known while
another part runs beside it, so that each of them can be checked alone. -/

namespace ChameleonVault.Concurrency.Discipline

variable {Op : Type} {Ret : Op → Type} {Q α β γ ε : Type} [Preorder Q] {D : Discipline Op Ret Q} {q q' : Q}

structure Growing (D : Discipline Op Ret Q) : Prop where
  allowed {q q' : Q} {op : Op} : q ≤ q' → D.allowed q op → D.allowed q' op
  next {q q' : Q} {op : Op} {r : Ret op} : q ≤ q' → D.next q op r ≤ D.next q' op r
  grows (q : Q) (op : Op) (r : Ret op) : q ≤ D.next q op r

section Programs

variable {p : Prog Op Ret α} {p' : Prog Op Ret β} {φ : α → Q → Prop} {ψ : β → Q → Prop} {post : γ → Q → Prop}

lemma Follows.grow (hD : Growing D) (hφ : ∀ a, Monotone (φ a)) (hle : q ≤ q') (h : D.Follows q p φ) : D.Follows q' p φ := by
  induction p generalizing q q' with
  | done a => exact hφ a hle h
  | step op next ih => exact ⟨hD.allowed hle h.1, fun r hr => ih r (hD.next hle) (h.2 r hr)⟩
  | choose next ih => exact fun c => ih c hle (h c)

lemma Follows.above (hD : Growing D) (h : D.Follows q p φ) : D.Follows q p (fun a q' => φ a q' ∧ q ≤ q') := by
  have later {q₀ : Q} (hle : q₀ ≤ q) : D.Follows q p (fun a q' => φ a q' ∧ q₀ ≤ q') := by
    induction p generalizing q with
    | done a => exact ⟨h, hle⟩
    | step op next ih => exact ⟨h.1, fun r hr => ih r (h.2 r hr) (hle.trans (hD.grows q op r))⟩
    | choose next ih => exact fun c => ih c (h c) hle
  exact later le_rfl

lemma Follows.interleave_growing {doneLeft : α → Prog Op Ret β → Prog Op Ret γ}
    {doneRight : Prog Op Ret α → β → Prog Op Ret γ} (hD : Growing D) (hφ : ∀ a, Monotone (φ a)) (hψ : ∀ b, Monotone (ψ b))
    (hp : D.Follows q p φ) (hp' : D.Follows q p' ψ)
    (hl : ∀ a p' q, φ a q → D.Follows q p' ψ → D.Follows q (doneLeft a p') post)
    (hr : ∀ p b q, ψ b q → D.Follows q p φ → D.Follows q (doneRight p b) post) :
    D.Follows q (Prog.interleave doneLeft doneRight p p') post := by
  induction p generalizing q p' with
  | done a => exact hl a p' q hp hp'
  | step op next ih =>
    simp only [Prog.interleave]
    induction p' generalizing q with
    | done b => exact hr _ b q hp' hp
    | step op' next' ih' =>
      intro c
      cases c with
      | true => exact ⟨hp.1, fun r hpr => ih r (hp.2 r hpr) (hp'.grow hD hψ (hD.grows q op r))⟩
      | false => exact ⟨hp'.1, fun r hpr => ih' r (hp.grow hD hφ (hD.grows q op' r)) (hp'.2 r hpr)⟩
    | choose next' ih' => exact fun c => ih' c hp (hp' c)
  | choose next ih => exact fun c => ih c (hp c) hp'

lemma Follows.alongside_growing (hD : Growing D) (hφ : ∀ a, Monotone (φ a)) (hψ : ∀ b, Monotone (ψ b))
    (hp : D.Follows q p φ) (hp' : D.Follows q p' ψ) : D.Follows q (Prog.alongside p p') φ := by
  refine .interleave_growing hD hφ hψ hp hp' (fun a p' q ha hp' => ?_) (fun p b q _ hp => hp)
  exact .bind (.mono (hp'.above hD) fun _ _ h => hφ a h.2 ha)

end Programs

section Awaiting

variable {p : Prog Op Ret (Except ε α)} {p' : Prog Op Ret (Except ε β)} {φ : α → Q → Prop} {ψ : β → Q → Prop}
  {post : γ → Q → Prop}

/-- What holds of a result, where there is one. -/
def onOk (φ : α → Q → Prop) (r : Except ε α) (q : Q) : Prop := ∀ a, r = .ok a → φ a q

omit [Preorder Q] in
lemma Keeps.onOk {Res : Op → Type} {D : Discipline Op (fun op => Except ε (Res op)) Q} {x : Call Op Res ε α}
    (h : D.Keeps q x φ (fun _ _ => True)) : D.Follows q x.run (onOk φ) := by
  refine Follows.mono h ?_
  rintro (e | a) q hq b hb
  · contradiction
  · exact Except.ok.inj hb ▸ hq

lemma onOk_monotone (hφ : ∀ a, Monotone (φ a)) (r : Except ε α) : Monotone (onOk φ r) :=
  fun _ _ hle h a ha => hφ a hle (h a ha)

lemma Follows.awaitAll_growing {success : α → β → Prog Op Ret γ} {failure : ε → Prog Op Ret γ} (hD : Growing D)
    (hφ : ∀ a, Monotone (φ a)) (hψ : ∀ b, Monotone (ψ b)) (hpost : ∀ c, Monotone (post c))
    (hp : D.Follows q p (onOk φ)) (hp' : D.Follows q p' (onOk ψ))
    (hok : ∀ a b q, φ a q → ψ b q → D.Follows q (success a b) post) (herr : ∀ e q, D.Follows q (failure e) post) :
    D.Follows q (Prog.awaitAll success failure p p') post := by
  refine .interleave_growing hD (onOk_monotone hφ) (onOk_monotone hψ) hp hp' ?_ ?_
  · rintro (e | a) p' q ha hp'
    · exact .alongside_growing hD hpost (onOk_monotone hψ) (herr e q) hp'
    · refine .bind (.mono (hp'.above hD) ?_)
      rintro (e | b) q' ⟨hb, hle⟩
      · exact herr e q'
      · exact hok a b q' (hφ a hle (ha a rfl)) (hb b rfl)
  · rintro p (e | b) q hb hp
    · exact .alongside_growing hD hpost (onOk_monotone hφ) (herr e q) hp
    · refine .bind (.mono (hp.above hD) ?_)
      rintro (e | a) q' ⟨ha, hle⟩
      · exact herr e q'
      · exact hok a b q' (ha a rfl) (hψ b hle (hb b rfl))

end Awaiting

section Calls

variable {Res : Op → Type} {D : Discipline Op (fun op => Except ε (Res op)) Q} {f : β → Call Op Res ε α}
  {φ : α → Q → Prop}

lemma forall_mem_monotone (hφ : ∀ a, Monotone (φ a)) (as : List α) : Monotone fun q => ∀ a ∈ as, φ a q :=
  fun _ _ hle h a ha => hφ a hle (h a ha)

lemma Keeps.each_growing (hD : Growing D) (hφ : ∀ a, Monotone (φ a))
    (hf : ∀ b q, D.Keeps q (f b) φ (fun _ _ => True)) (bs : List β) :
    D.Keeps q (Call.each f bs) (fun as q => ∀ a ∈ as, φ a q) (fun _ _ => True) := by
  induction bs generalizing q with
  | nil => exact Keeps.pure fun a ha => absurd ha List.not_mem_nil
  | cons b bs ih =>
    apply Keeps.bind
    refine Keeps.mono (hf b q) (fun a q' ha => ?_) (fun _ _ => id)
    apply Keeps.bind
    refine Follows.mono (ih.above hD) ?_
    rintro (e | as) q'' ⟨has, hle⟩
    · trivial
    · exact Keeps.pure (List.forall_mem_cons.mpr ⟨hφ a hle ha, has⟩)

end Calls

end ChameleonVault.Concurrency.Discipline
