import Mathlib.Order.WithBot
import Mathlib.Data.Nat.Log
import Mathlib.Tactic.Ring

/-! The double that is closest to a natural number, `⊤` being infinity. -/

namespace ChameleonVault.Encoding.Binary64

section Rounding

/-- The quotient that is closest, an even one of two that are equally close. -/
def closest (n d : ℕ) : ℕ :=
  if 2 * (n % d) < d then n / d
  else if d < 2 * (n % d) then n / d + 1
  else n / d + (n / d) % 2

variable {m n d k : ℕ}

lemma closest_bounds (n d : ℕ) : n / d ≤ closest n d ∧ closest n d ≤ n / d + 1 := by
  rw [closest]
  split
  · omega
  · split
    · omega
    · omega

lemma closest_mul_le (hd : 0 < d) (h : n ≤ k * d) : closest n d ≤ k := by
  rcases Nat.lt_or_ge (n / d) k with hlt | hge
  · have hbound := (closest_bounds n d).2
    omega
  · have hdiv : n / d = k := le_antisymm (Nat.div_le_of_le_mul (by rwa [mul_comm])) hge
    have hmod : n % d = 0 := by
      have hsplit := Nat.div_add_mod n d
      rw [hdiv, mul_comm] at hsplit
      omega
    rw [closest, hmod, if_pos (by omega), hdiv]

lemma le_closest_mul (hd : 0 < d) (h : k * d ≤ n) : k ≤ closest n d :=
  ((Nat.le_div_iff_mul_le hd).mpr h).trans (closest_bounds n d).1

lemma closest_mono (h : m ≤ n) : closest m d ≤ closest n d := by
  have hdiv : m / d ≤ n / d := Nat.div_le_div_right h
  rcases Nat.lt_or_ge (m / d) (n / d) with hlt | hge
  · have hm := (closest_bounds m d).2
    have hn := (closest_bounds n d).1
    omega
  · have hsame : m / d = n / d := le_antisymm hdiv hge
    have hmod : m % d ≤ n % d := by
      have hm := Nat.div_add_mod m d
      have hn := Nat.div_add_mod n d
      rw [hsame] at hm
      omega
    rw [closest, closest]
    rw [hsame]
    split
    · exact (closest_bounds n d).1
    · split
      · rw [if_neg (by omega), if_pos (by omega)]
      · split
        · omega
        · split
          · omega
          · exact le_refl _

end Rounding

section Doubles

/-- The places that a significand of 53 bits has no room for. -/
def dropped (n : ℕ) : ℕ := Nat.log 2 n - 52

def significand (n : ℕ) : ℕ := closest n (2 ^ dropped n) * 2 ^ dropped n

def ofNat (n : ℕ) : WithTop ℕ := if significand n < 2 ^ 1024 then (significand n : WithTop ℕ) else ⊤

variable {m n : ℕ}

lemma pow_dropped {k : ℕ} (h : Nat.log 2 n ≤ k) : 2 ^ (k - dropped n) * 2 ^ dropped n = 2 ^ k := by
  have hle : dropped n ≤ k := (Nat.sub_le _ _).trans h
  rw [← pow_add, Nat.sub_add_cancel hle]

lemma significand_le_pow {k : ℕ} (h : Nat.log 2 n < k) : significand n ≤ 2 ^ k := by
  have hn : n ≤ 2 ^ (k - dropped n) * 2 ^ dropped n := by
    rw [pow_dropped h.le]
    exact (Nat.lt_pow_of_log_lt (by decide) h).le
  rw [← pow_dropped h.le]
  exact Nat.mul_le_mul_right _ (closest_mul_le (Nat.two_pow_pos _) hn)

lemma pow_log_le_significand (hn : n ≠ 0) : 2 ^ Nat.log 2 n ≤ significand n := by
  have hle : 2 ^ (Nat.log 2 n - dropped n) * 2 ^ dropped n ≤ n := by
    rw [pow_dropped (le_refl _)]
    exact Nat.pow_log_le_self 2 hn
  rw [← pow_dropped (le_refl (Nat.log 2 n))]
  exact Nat.mul_le_mul_right _ (le_closest_mul (Nat.two_pow_pos _) hle)

lemma significand_mono (h : m ≤ n) : significand m ≤ significand n := by
  have hlog : Nat.log 2 m ≤ Nat.log 2 n := Nat.log_mono_right h
  rcases Nat.lt_or_ge (Nat.log 2 m) (Nat.log 2 n) with hlt | hge
  · -- the power of two between them is a double
    have hn : n ≠ 0 := by
      intro hzero
      subst hzero
      simp at hlt
    exact (significand_le_pow hlt).trans (pow_log_le_significand hn)
  · have hsame : dropped m = dropped n := by rw [dropped, dropped, le_antisymm hlog hge]
    rw [significand, significand, hsame]
    exact Nat.mul_le_mul_right _ (closest_mono h)

lemma ofNat_mono (h : m ≤ n) : ofNat m ≤ ofNat n := by
  have hle := significand_mono h
  rw [ofNat, ofNat]
  split
  · split
    · exact WithTop.coe_le_coe.mpr hle
    · exact le_top
  · rw [if_neg (by omega)]

end Doubles

end ChameleonVault.Encoding.Binary64
