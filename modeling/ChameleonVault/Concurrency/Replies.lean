import ChameleonVault.Concurrency.Sequence

/-! Whole calls one after another, with what each of them replied. -/

namespace ChameleonVault.Concurrency

variable {Op : Type} {Ret : Op → Type} {Choice State Job β : Type}
  {exec : (op : Op) → Choice → State → Option (Ret op × State)} {body : Job → Prog Op Ret β}
  {allowed : State → Op → Choice → Prop} {s t : State} {replies : List (Job × β)}

inductive Replied (exec : (op : Op) → Choice → State → Option (Ret op × State)) (body : Job → Prog Op Ret β)
    (allowed : State → Op → Choice → Prop) (s : State) : List (Job × β) → State → Prop where
  | start : Replied exec body allowed s [] s
  | next {replies : List (Job × β)} {t u : State} {j : Job} {b : β} (h : Replied exec body allowed s replies t)
      (hr : Runs exec allowed (body j) t b u) : Replied exec body allowed s (replies ++ [(j, b)]) u

/-- What one call adds to the replies and makes of the state holds of all of them. -/
lemma Replied.keeps {inv : List (Job × β) → State → Prop} {guard : Job → Prop}
    (hcall : ∀ replies t j, inv replies t → guard j →
      Must exec allowed (body j) t fun b => inv (replies ++ [(j, b)]))
    (hs : inv [] s) (h : Replied exec body allowed s replies t) (hg : ∀ reply ∈ replies, guard reply.1) :
    inv replies t := by
  induction h with
  | start => exact hs
  | next h hr ih =>
    obtain ⟨hg, hj⟩ := List.forall_mem_append.mp hg
    exact hcall _ _ _ (ih hg) (hj _ (List.mem_singleton_self _)) _ _ hr

variable [∀ s op choice, Decidable (allowed s op choice)]

def playReplies (exec : (op : Op) → Choice → State → Option (Ret op × State)) (body : Job → Prog Op Ret β)
    (allowed : State → Op → Choice → Prop) [∀ s op choice, Decidable (allowed s op choice)] :
    List (Job × List Choice) → List (Job × β) → State → Option (List (Job × β) × State)
  | [], replies, s => some (replies, s)
  | (j, choices) :: calls, replies, s =>
    (play exec allowed (body j) choices s).bind fun r =>
      playReplies exec body allowed calls (replies ++ [(j, r.1)]) r.2

lemma replied_of_play {calls : List (Job × List Choice)} {replies' : List (Job × β)} {u : State}
    (h : Replied exec body allowed s replies t)
    (hp : playReplies exec body allowed calls replies t = some (replies', u)) : Replied exec body allowed s replies' u := by
  induction calls generalizing replies t with
  | nil =>
    obtain ⟨rfl, rfl⟩ := Prod.mk.inj (Option.some.inj hp)
    exact h
  | cons call calls ih =>
    obtain ⟨r, hr, hp⟩ := Option.bind_eq_some_iff.mp hp
    exact ih (h.next (runs_of_play hr)) hp

lemma exists_replied (calls : List (Job × List Choice)) (P : List (Job × β) → State → Prop)
    [∀ replies t, Decidable (P replies t)]
    (h : (playReplies exec body allowed calls [] s).any (fun r => P r.1 r.2) = true) :
    ∃ replies t, Replied exec body allowed s replies t ∧ P replies t := by
  obtain ⟨r, hr, hP⟩ := (Option.any_eq_true _ _).mp h
  exact ⟨r.1, r.2, replied_of_play .start hr, of_decide_eq_true hP⟩

end ChameleonVault.Concurrency
