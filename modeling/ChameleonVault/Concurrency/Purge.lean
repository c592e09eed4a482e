import ChameleonVault.Concurrency.Interleaving

/-! A run, and the same run without the operations of some of its threads. Where these change
nothing that the other threads can see, the others cannot tell the two runs apart. -/

namespace ChameleonVault.Concurrency

open Interleaving

variable {S : Interleaving}

namespace Interleaving

def isKept (kept : S.Op → Bool) : Entry S → Bool
  | .act a => kept a.op
  | .env _ => true

structure Purges (kept : S.Op → Bool) (dropped : S.Op → Prop) (same : S.State → S.State → Prop) : Prop where
  body {j : S.Job} : S.client j = true → (S.body j).Uses (fun op => kept op = true) ∨ (S.body j).Uses dropped
  forks (op : S.Op) (r : S.Ret op) : S.forks op r = []
  disjoint {op : S.Op} : dropped op → kept op = false
  act {op : S.Op} {choice : S.Choice} {s s' t : S.State} {r : S.Ret op} : kept op = true → same s s' →
    S.exec op choice s = some (r, t) → ∃ t', S.exec op choice s' = some (r, t') ∧ same t t'
  drop {op : S.Op} {choice : S.Choice} {s s' t : S.State} {r : S.Ret op} : dropped op → same s s' →
    S.exec op choice s = some (r, t) → same t s'
  env {e : S.Env} {s s' t : S.State} : same s s' → S.env e s = some t → ∃ t', S.env e s' = some t' ∧ same t t'

/-- The second run is where the first is, except that the dropped threads have not moved. -/
structure Purged (kept : S.Op → Bool) (dropped : S.Op → Prop) (same : S.State → S.State → Prop) (c d : Config S) :
    Prop where
  state : same c.state d.state
  log : d.log = c.log.filter (isKept kept)
  length : d.threads.length = c.threads.length
  thread {t : ℕ} {p : Prog S.Op S.Ret Unit} : c.threads[t]? = some p →
    d.threads[t]? = some p ∧ p.Uses (fun op => kept op = true) ∨ p.Uses dropped

variable {kept : S.Op → Bool} {dropped : S.Op → Prop} {same : S.State → S.State → Prop} {c c' d : Config S}

lemma Purged.start (h : Purged kept dropped same c d) (hs : Purges kept dropped same) {j : S.Job}
    (hj : S.client j = true) :
    Purged kept dropped same ⟨c.state, c.threads ++ [S.body j], c.log⟩ ⟨d.state, d.threads ++ [S.body j], d.log⟩ := by
  refine ⟨h.state, h.log, by simp [h.length], fun {t p} hp => ?_⟩
  simp only at hp ⊢
  by_cases ht : t < c.threads.length
  · rw [List.getElem?_append_left ht] at hp
    rw [List.getElem?_append_left (h.length ▸ ht)]
    exact h.thread hp
  · rw [List.getElem?_append_right (Nat.le_of_not_lt ht)] at hp
    rw [List.getElem?_append_right (h.length ▸ Nat.le_of_not_lt ht), h.length]
    obtain rfl := List.mem_singleton.mp (List.mem_of_getElem? hp)
    exact (hs.body hj).imp (fun hu => ⟨hp, hu⟩) id

/-- Of the thread that moved it is enough to know what becomes of it. -/
lemma Purged.set (h : Purged kept dropped same c d) {t : ℕ} {p : Prog S.Op S.Ret Unit}
    {ps : List (Prog S.Op S.Ret Unit)} (hlength : ps.length = d.threads.length)
    (hother : ∀ u, u ≠ t → ps[u]? = d.threads[u]?) (ht : t < c.threads.length)
    (hp : ps[t]? = some p ∧ p.Uses (fun op => kept op = true) ∨ p.Uses dropped) {s s' : S.State} {log log' : Log S}
    (hstate : same s s') (hlog : log' = log.filter (isKept kept)) :
    Purged kept dropped same ⟨s, c.threads.set t p, log⟩ ⟨s', ps, log'⟩ := by
  refine ⟨hstate, hlog, by simp [hlength, h.length], fun {u q} hu => ?_⟩
  simp only at hu ⊢
  by_cases hut : u = t
  · subst hut
    rw [List.getElem?_set_self ht] at hu
    obtain rfl := Option.some.inj hu
    exact hp
  · rw [List.getElem?_set_ne (Ne.symm hut)] at hu
    rw [hother u hut]
    exact h.thread hu

lemma Purged.step (h : Purged kept dropped same c d) (hs : Purges kept dropped same) (hstep : Step free c c') :
    ∃ d', Reachable free d d' ∧ Purged kept dropped same c' d' := by
  have moved {t : ℕ} {p : Prog S.Op S.Ret Unit} (u : ℕ) (hu : u ≠ t) : (d.threads.set t p)[u]? = d.threads[u]? :=
    List.getElem?_set_ne (Ne.symm hu)
  cases hstep with
  | start j hj => exact ⟨_, .single (.start j hj), h.start hs hj⟩
  | pick t next b hp =>
    have ht : t < c.threads.length := (List.getElem?_eq_some_iff.mp hp).1
    have ht' : t < d.threads.length := h.length ▸ ht
    rcases h.thread hp with ⟨hd, hu⟩ | hu
    · refine ⟨_, .single (.pick t next b hd), ?_⟩
      exact h.set (List.length_set) moved ht (.inl ⟨List.getElem?_set_self ht', hu b⟩) h.state h.log
    · exact ⟨d, .refl, h.set rfl (fun _ _ => rfl) ht (.inr (hu b)) h.state h.log⟩
  | act t op next choice reply s hp he hg =>
    have ht : t < c.threads.length := (List.getElem?_eq_some_iff.mp hp).1
    have ht' : t < d.threads.length := h.length ▸ ht
    rw [hs.forks op reply, List.map_nil, List.append_nil]
    rcases h.thread hp with ⟨hd, hu⟩ | hu
    · obtain ⟨s', he', hsame⟩ := hs.act hu.1 h.state he
      have hact : Step free d _ := .act t op next choice reply s' hd he' trivial
      rw [hs.forks op reply, List.map_nil, List.append_nil] at hact
      refine ⟨_, .single hact, h.set (List.length_set) moved ht (.inl ⟨List.getElem?_set_self ht', hu.2 reply⟩) hsame ?_⟩
      rw [List.filter_cons_of_pos (by exact hu.1), h.log]
    · refine ⟨d, .refl, h.set rfl (fun _ _ => rfl) ht (.inr (hu.2 reply)) (hs.drop hu.1 h.state he) ?_⟩
      rw [List.filter_cons_of_neg (by simp [isKept, hs.disjoint hu.1]), h.log]
  | env e s he hg =>
    obtain ⟨s', he', hsame⟩ := hs.env h.state he
    refine ⟨_, .single (.env e s' he' trivial), hsame, ?_, h.length, h.thread⟩
    rw [List.filter_cons_of_pos rfl, h.log]

lemma Purges.reachable (hs : Purges kept dropped same) (hd : Purged kept dropped same c d) (h : Reachable free c c') :
    ∃ d', Reachable free d d' ∧ Purged kept dropped same c' d' := by
  induction h with
  | refl => exact ⟨d, .refl, hd⟩
  | tail _ hstep ih =>
    obtain ⟨d₁, hd₁, h₁⟩ := ih
    obtain ⟨d₂, hd₂, h₂⟩ := h₁.step hs hstep
    exact ⟨d₂, hd₁.trans hd₂, h₂⟩

lemma Purges.run (hs : Purges kept dropped same) {s s' : S.State} (hsame : same s s')
    (h : Reachable free (initial s) c) : ∃ d, Reachable free (initial s') d ∧ same c.state d.state ∧
      d.log = c.log.filter (isKept kept) := by
  have hstart : Purged kept dropped same (initial s) (initial s') :=
    ⟨hsame, rfl, rfl, fun {t p} hp => by simp [initial] at hp⟩
  obtain ⟨d, hd, hpurged⟩ := hs.reachable hstart h
  exact ⟨d, hd, hpurged.state, hpurged.log⟩

end Interleaving

end ChameleonVault.Concurrency
