import Mathlib.Data.List.Basic

/-! Chains of records, each of which names its own place and the hash of the record before it. -/

namespace ChameleonVault.HashChain

structure Links (C H : Type) where
  hash : C → H
  prev : C → Option H
  seq : C → ℕ

namespace Links

variable {C H : Type} {L : Links C H} {c c' : C} {cs : List C}

variable (L) in
/-- The newest record comes first. -/
def Linked : List C → Prop
  | [] => True
  | c :: cs => L.prev c = cs.head?.map L.hash ∧ L.seq c = cs.length + 1 ∧ Linked cs

lemma Linked.seq_le (h : L.Linked cs) (hc : c ∈ cs) : L.seq c ≤ cs.length := by
  induction cs with
  | nil => contradiction
  | cons d cs ih =>
    simp only [List.length_cons]
    rcases List.mem_cons.mp hc with rfl | hc
    · have hs := h.2.1
      omega
    · have hle := ih h.2.2 hc
      omega

lemma Linked.seq_pos (h : L.Linked cs) (hc : c ∈ cs) : 0 < L.seq c := by
  induction cs with
  | nil => contradiction
  | cons d cs ih =>
    rcases List.mem_cons.mp hc with rfl | hc
    · have hs := h.2.1
      omega
    · exact ih h.2.2 hc

lemma Linked.exists_seq (h : L.Linked cs) {n : ℕ} (hn : 0 < n) (hle : n ≤ cs.length) : ∃ c ∈ cs, L.seq c = n := by
  induction cs with
  | nil =>
    simp only [List.length_nil] at hle
    omega
  | cons d cs ih =>
    by_cases hd : n = cs.length + 1
    · exact ⟨d, List.mem_cons_self, by rw [h.2.1, hd]⟩
    · simp only [List.length_cons] at hle
      obtain ⟨c, hc, hs⟩ := ih h.2.2 (by omega)
      exact ⟨c, List.mem_cons_of_mem d hc, hs⟩

lemma Linked.seq_inj (h : L.Linked cs) (hc : c ∈ cs) (hc' : c' ∈ cs) (hs : L.seq c = L.seq c') : c = c' := by
  induction cs with
  | nil => contradiction
  | cons d cs ih =>
    rcases List.mem_cons.mp hc with rfl | hm <;> rcases List.mem_cons.mp hc' with rfl | hm'
    · rfl
    · have hle := h.2.2.seq_le hm'
      have hd := h.2.1
      omega
    · have hle := h.2.2.seq_le hm
      have hd := h.2.1
      omega
    · exact ih h.2.2 hm hm'

lemma Linked.prev_of_succ (h : L.Linked cs) (hc : c ∈ cs) (hc' : c' ∈ cs) (hs : L.seq c' = L.seq c + 1) :
    L.prev c' = some (L.hash c) := by
  induction cs with
  | nil => contradiction
  | cons d cs ih =>
    rcases List.mem_cons.mp hc with rfl | hm <;> rcases List.mem_cons.mp hc' with rfl | hm'
    · omega
    · have hle := h.2.2.seq_le hm'
      have hd := h.2.1
      omega
    · have hd := h.2.1
      cases cs with
      | nil => contradiction
      | cons e cs =>
        have he : L.seq c = L.seq e := by
          have hseq := h.2.2.2.1
          simp only [List.length_cons] at hd hseq
          omega
        rw [h.1, List.head?_cons, Option.map_some, h.2.2.seq_inj hm List.mem_cons_self he]
    · exact ih h.2.2 hm hm'

lemma Linked.prev_of_one (h : L.Linked cs) (hc : c ∈ cs) (hs : L.seq c = 1) : L.prev c = none := by
  induction cs with
  | nil => contradiction
  | cons d cs ih =>
    rcases List.mem_cons.mp hc with rfl | hc
    · have hd := h.2.1
      have hcs : cs = [] := List.length_eq_zero_iff.mp (by omega)
      rw [h.1, hcs]
      rfl
    · exact ih h.2.2 hc

section Walk

def walks (L : Links C H) (find : H → Option C) : ℕ → C → Bool
  | 0, _ => false
  | n + 1, c =>
    L.seq c = n + 1 && match L.prev c with
      | none => n = 0
      | some hash =>
        match find hash with
        | some c' => walks L find n c'
        | none => false

lemma walks_of_descends {find : H → Option C} {P : C → Prop}
    (hP : ∀ c, P c → L.prev c = none ∧ L.seq c = 1 ∨
      ∃ hash c', L.prev c = some hash ∧ find hash = some c' ∧ P c' ∧ L.seq c = L.seq c' + 1) (hc : P c) :
    L.walks find (L.seq c) c = true := by
  induction hn : L.seq c generalizing c with
  | zero =>
    rcases hP c hc with ⟨-, hs⟩ | ⟨hash, c', -, -, -, hs⟩ <;> omega
  | succ n ih =>
    rcases hP c hc with ⟨hp, hs⟩ | ⟨hash, c', hp, hf, hc', hs⟩
    · have hzero : n = 0 := by omega
      simp [walks, hn, hp, hzero]
    · have hs' : L.seq c' = n := by omega
      simp [walks, hn, hp, hf, ih hc' hs']

end Walk

end Links

end ChameleonVault.HashChain
