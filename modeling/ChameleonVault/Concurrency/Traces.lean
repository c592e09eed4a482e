import ChameleonVault.Concurrency.Program

/-! What a program asks and is told, operation by operation, when any reply may come. -/

namespace ChameleonVault.Concurrency

structure Exchange (Op : Type) (Ret : Op → Type) where
  op : Op
  reply : Ret op

section Programs

variable {Op : Type} {Ret : Op → Type} {α β : Type}

def Traces : Prog Op Ret α → List (Exchange Op Ret) → α → Prop
  | .done b, log, a => log = [] ∧ b = a
  | .step op next, log, a => ∃ reply rest, log = ⟨op, reply⟩ :: rest ∧ Traces (next reply) rest a
  | .choose next, log, a => ∃ c, Traces (next c) log a

/-- What the outside world replies may depend on everything that was asked and told before. -/
abbrev Behaviour (Op : Type) (Ret : Op → Type) := List (Exchange Op Ret) → (op : Op) → Ret op

def AnsweredBy (world : Behaviour Op Ret) : List (Exchange Op Ret) → List (Exchange Op Ret) → Prop
  | _, [] => True
  | before, e :: log => e.reply = world before e.op ∧ AnsweredBy world (before ++ [e]) log

variable {p : Prog Op Ret α} {f : α → Prog Op Ret β} {log : List (Exchange Op Ret)} {b : β}

lemma traces_bind_iff : Traces (p.bind f) log b ↔
    ∃ a first rest, Traces p first a ∧ Traces (f a) rest b ∧ log = first ++ rest := by
  induction p generalizing log with
  | done a =>
    constructor
    · exact fun h => ⟨a, [], log, ⟨rfl, rfl⟩, h, rfl⟩
    · rintro ⟨_, _, rest, ⟨rfl, rfl⟩, h, rfl⟩
      exact h
  | step op next ih =>
    constructor
    · rintro ⟨reply, rest, rfl, h⟩
      obtain ⟨a, first, rest, hp, hf, rfl⟩ := (ih reply).mp h
      exact ⟨a, _, rest, ⟨reply, first, rfl, hp⟩, hf, rfl⟩
    · rintro ⟨a, _, rest, ⟨reply, first, rfl, hp⟩, hf, rfl⟩
      exact ⟨reply, _, rfl, (ih reply).mpr ⟨a, first, rest, hp, hf, rfl⟩⟩
  | choose next ih =>
    constructor
    · rintro ⟨c, h⟩
      obtain ⟨a, first, rest, hp, hf, rfl⟩ := (ih c).mp h
      exact ⟨a, first, rest, ⟨c, hp⟩, hf, rfl⟩
    · rintro ⟨a, first, rest, ⟨c, hp⟩, hf, rfl⟩
      exact ⟨c, (ih c).mpr ⟨a, first, rest, hp, hf, rfl⟩⟩

lemma AnsweredBy.of_mem {world : Behaviour Op Ret} {before : List (Exchange Op Ret)} {e : Exchange Op Ret}
    (h : AnsweredBy world before log) (he : e ∈ log) : ∃ before, e.reply = world before e.op := by
  induction log generalizing before with
  | nil => exact absurd he List.not_mem_nil
  | cons x log ih =>
    rcases List.mem_cons.mp he with rfl | he
    · exact ⟨before, h.1⟩
    · exact ih h.2 he

/-- The run in a world, with every free choice made one way. -/
def follow (world : Behaviour Op Ret) : Prog Op Ret α → List (Exchange Op Ret) → List (Exchange Op Ret) × α
  | .done a, _ => ([], a)
  | .step op next, before =>
    let reply := world before op
    let rest := follow world (next reply) (before ++ [⟨op, reply⟩])
    (⟨op, reply⟩ :: rest.1, rest.2)
  | .choose next, before => follow world (next true) before

lemma traces_follow (world : Behaviour Op Ret) (p : Prog Op Ret α) (before : List (Exchange Op Ret)) :
    Traces p (follow world p before).1 (follow world p before).2 ∧ AnsweredBy world before (follow world p before).1 := by
  induction p generalizing before with
  | done a => exact ⟨⟨rfl, rfl⟩, trivial⟩
  | step op next ih =>
    obtain ⟨h, hanswered⟩ := ih (world before op) (before ++ [⟨op, world before op⟩])
    exact ⟨⟨_, _, rfl, h⟩, rfl, hanswered⟩
  | choose next ih =>
    obtain ⟨h, hanswered⟩ := ih true before
    exact ⟨⟨true, h⟩, hanswered⟩

/-- However the outside world behaves, the program comes to an end. -/
lemma exists_trace (world : Behaviour Op Ret) (p : Prog Op Ret α) (before : List (Exchange Op Ret)) :
    ∃ log a, Traces p log a ∧ AnsweredBy world before log :=
  ⟨_, _, traces_follow world p before⟩

end Programs

section Calls

variable {Op : Type} {Res : Op → Type} {ε α β : Type} {x : Call Op Res ε α} {f : α → Call Op Res ε β}
  {log : List (Exchange Op fun op => Except ε (Res op))}

lemma traces_call_bind_iff {r : Except ε β} : Traces (x >>= f).run log r ↔
    (∃ a first rest, Traces x.run first (.ok a) ∧ Traces (f a).run rest r ∧ log = first ++ rest) ∨
      ∃ e, Traces x.run log (.error e) ∧ r = .error e := by
  refine traces_bind_iff.trans ⟨?_, ?_⟩
  · rintro ⟨e | a, first, rest, hx, hf, rfl⟩
    · obtain ⟨rfl, rfl⟩ := hf
      exact .inr ⟨e, by rwa [List.append_nil], rfl⟩
    · exact .inl ⟨a, first, rest, hx, hf, rfl⟩
  · rintro (⟨a, first, rest, hx, hf, rfl⟩ | ⟨e, hx, rfl⟩)
    · exact ⟨.ok a, first, rest, hx, hf, rfl⟩
    · exact ⟨.error e, log, [], hx, ⟨rfl, rfl⟩, (List.append_nil _).symm⟩

lemma traces_perform_iff {op : Op} {r : Except ε (Res op)} :
    Traces (perform op : Call Op Res ε (Res op)).run log r ↔ log = [⟨op, r⟩] := by
  constructor
  · rintro ⟨reply, rest, rfl, rfl, rfl⟩
    rfl
  · rintro rfl
    exact ⟨r, [], rfl, rfl, rfl⟩

lemma traces_tryCatch_iff {handler : ε → Call Op Res ε α} {r : Except ε α} :
    Traces (tryCatch x handler).run log r ↔
      (∃ a, Traces x.run log (.ok a) ∧ r = .ok a) ∨
        ∃ e first rest, Traces x.run first (.error e) ∧ Traces (handler e).run rest r ∧ log = first ++ rest := by
  refine traces_bind_iff.trans ⟨?_, ?_⟩
  · rintro ⟨e | a, first, rest, hx, hf, rfl⟩
    · exact .inr ⟨e, first, rest, hx, hf, rfl⟩
    · obtain ⟨rfl, rfl⟩ := hf
      exact .inl ⟨a, by rwa [List.append_nil], rfl⟩
  · rintro (⟨a, hx, rfl⟩ | ⟨e, first, rest, hx, hf, rfl⟩)
    · exact ⟨.ok a, log, [], hx, ⟨rfl, rfl⟩, (List.append_nil _).symm⟩
    · exact ⟨.error e, first, rest, hx, hf, rfl⟩

lemma traces_pure_iff {a : α} {r : Except ε α} :
    Traces (pure a : Call Op Res ε α).run log r ↔ log = [] ∧ r = .ok a :=
  and_congr_right fun _ => eq_comm

lemma traces_orThrow_iff {result r : Except ε α} : Traces (Call.orThrow result : Call Op Res ε α).run log r ↔
    log = [] ∧ r = result :=
  and_congr_right fun _ => eq_comm

/-- A step whose failure is caught is one exchange, whatever comes back. -/
lemma traces_quietly {op : Op} {u : Call Op Res ε Unit} {r : Except ε Unit}
    (hu : ∀ log r, Traces u.run log r → ∃ reply, log = [⟨op, reply⟩]) (h : Traces (Call.quietly u).run log r) :
    r = .ok () ∧ ∃ reply, log = [⟨op, reply⟩] := by
  rcases traces_tryCatch_iff.mp h with ⟨a, hx, rfl⟩ | ⟨e, first, rest, hx, hf, rfl⟩
  · exact ⟨rfl, hu log _ hx⟩
  · obtain ⟨rfl, rfl⟩ := traces_pure_iff.mp hf
    obtain ⟨reply, rfl⟩ := hu first _ hx
    exact ⟨rfl, reply, rfl⟩

/-- The parts of the log that belong to the elements of a list, one after the other. -/
inductive Segmented {γ : Type} (P : α → β → List γ → Prop) : List α → List β → List γ → Prop
  | nil : Segmented P [] [] []
  | cons {a : α} {b : β} {first rest : List γ} {as : List α} {bs : List β} (h : P a b first)
      (hs : Segmented P as bs rest) : Segmented P (a :: as) (b :: bs) (first ++ rest)

lemma Segmented.mono {γ : Type} {P P' : α → β → List γ → Prop} {as : List α} {bs : List β} {log : List γ}
    (h : Segmented P as bs log) (hP : ∀ a b part, P a b part → P' a b part) : Segmented P' as bs log := by
  induction h with
  | nil => exact .nil
  | cons h _ ih => exact .cons (hP _ _ _ h) ih

lemma Segmented.forall_mem {γ : Type} {P : α → β → List γ → Prop} {Q : γ → Prop} {as : List α} {bs : List β} {log : List γ}
    (h : Segmented P as bs log) (hP : ∀ a b part, P a b part → ∀ x ∈ part, Q x) : ∀ x ∈ log, Q x := by
  induction h with
  | nil => exact fun x hx => absurd hx List.not_mem_nil
  | cons h _ ih =>
    intro x hx
    rcases List.mem_append.mp hx with hx | hx
    · exact hP _ _ _ h x hx
    · exact ih x hx

/-- Either every element ends in order, or one fails over an exchange in its part of the log. -/
lemma segmented_of_each {P : α → β → List (Exchange Op fun op => Except ε (Res op)) → Prop}
    {bad : (Exchange Op fun op => Except ε (Res op)) → Prop} {as : List α} {r : Except ε (List β)}
    (hf : ∀ a ∈ as, ∀ log r, Traces (f a).run log r →
      (∃ b, r = .ok b ∧ P a b log) ∨ (∃ e, r = .error e) ∧ ∃ x ∈ log, bad x)
    (h : Traces (Call.each f as).run log r) :
    (∃ bs, r = .ok bs ∧ Segmented P as bs log) ∨ (∃ e, r = .error e) ∧ ∃ x ∈ log, bad x := by
  induction as generalizing log r with
  | nil =>
    obtain ⟨rfl, rfl⟩ := traces_pure_iff.mp h
    exact .inl ⟨[], rfl, .nil⟩
  | cons a as ih =>
    obtain ⟨ha, has⟩ := List.forall_mem_cons.mp hf
    rcases traces_call_bind_iff.mp h with ⟨b, first, rest, hb, hrest, rfl⟩ | ⟨e, he, rfl⟩
    · rcases ha first _ hb with ⟨b', hb', hP⟩ | ⟨⟨e, he⟩, -⟩
      · obtain rfl := Except.ok.inj hb'
        rcases traces_call_bind_iff.mp hrest with ⟨bs, middle, last, hbs, hpure, rfl⟩ | ⟨e, he, rfl⟩
        · rcases ih has hbs with ⟨bs', hbs', hsegments⟩ | ⟨⟨e, he⟩, -⟩
          · obtain rfl := Except.ok.inj hbs'
            obtain ⟨rfl, rfl⟩ := traces_pure_iff.mp hpure
            rw [List.append_nil]
            exact .inl ⟨b :: bs, rfl, .cons hP hsegments⟩
          · cases he
        · rcases ih has he with ⟨bs, hbs, -⟩ | ⟨-, x, hx, hbad⟩
          · cases hbs
          · exact .inr ⟨⟨e, rfl⟩, x, List.mem_append_right first hx, hbad⟩
      · cases he
    · rcases ha log _ he with ⟨b, hb, -⟩ | ⟨-, x, hx, hbad⟩
      · cases hb
      · exact .inr ⟨⟨e, rfl⟩, x, hx, hbad⟩

end Calls

end ChameleonVault.Concurrency
