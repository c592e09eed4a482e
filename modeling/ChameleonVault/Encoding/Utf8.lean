import Mathlib.Data.List.Basic

/-! Decoding UTF-8. What is no part of a character reads as the replacement character. -/

namespace ChameleonVault.Encoding.Utf8

def replacement : Char := Char.ofNat 0xFFFD

def encode (cs : List Char) : List UInt8 := cs.flatMap String.utf8EncodeChar

/-- A character whose last bytes are still to come, and where the next one must lie. -/
structure Pending where
  value : ℕ
  needed : ℕ
  low : ℕ
  high : ℕ

def lead (b : ℕ) : Option Pending :=
  if 0xC2 ≤ b ∧ b ≤ 0xDF then some ⟨b - 0xC0, 1, 0x80, 0xBF⟩
  else if 0xE0 ≤ b ∧ b ≤ 0xEF then
    some ⟨b - 0xE0, 2, if b = 0xE0 then 0xA0 else 0x80, if b = 0xED then 0x9F else 0xBF⟩
  else if 0xF0 ≤ b ∧ b ≤ 0xF4 then
    some ⟨b - 0xF0, 3, if b = 0xF0 then 0x90 else 0x80, if b = 0xF4 then 0x8F else 0xBF⟩
  else none

def start (b : ℕ) : List Char × Option Pending :=
  if b < 0x80 then ([Char.ofNat b], none)
  else match lead b with
    | some p => ([], some p)
    | none => ([replacement], none)

def Pending.next (p : Pending) (b : ℕ) : List Char × Option Pending :=
  let value := p.value * 64 + (b - 0x80)
  if p.needed = 1 then ([Char.ofNat value], none) else ([], some ⟨value, p.needed - 1, 0x80, 0xBF⟩)

/-- A byte that does not continue the character begins another. -/
def step : Option Pending → ℕ → List Char × Option Pending
  | none, b => start b
  | some p, b => if p.low ≤ b ∧ b ≤ p.high then p.next b else (replacement :: (start b).1, (start b).2)

def decodeFrom : Option Pending → List UInt8 → List Char
  | none, [] => []
  | some _, [] => [replacement]
  | pending, b :: bs => (step pending b.toNat).1 ++ decodeFrom (step pending b.toNat).2 bs

def decode (bs : List UInt8) : List Char := decodeFrom none bs

section RoundTrip

variable {c : Char} {cs : List Char} {bs : List UInt8} {b n : ℕ} {p : Pending}

lemma decodeFrom_ofNat {pending : Option Pending} (hb : b < 256) : decodeFrom pending (UInt8.ofNat b :: bs) =
    (step pending b).1 ++ decodeFrom (step pending b).2 bs := by
  have hbyte : (UInt8.ofNat b).toNat = b := UInt8.toNat_ofNat_of_lt' hb
  cases pending <;> simp [decodeFrom, hbyte]

lemma step_next (hlow : p.low ≤ b) (hhigh : b ≤ p.high) : step (some p) b = p.next b := if_pos ⟨hlow, hhigh⟩

lemma step_last (hn : n < 64) : step (some ⟨b, 1, 0x80, 0xBF⟩) (n + 0x80) = ([Char.ofNat (b * 64 + n)], none) := by
  rw [step_next (by simp) (by simp; omega)]
  simp [Pending.next]

lemma step_more {needed low high : ℕ} (hlow : low ≤ n + 0x80) (hhigh : n + 0x80 ≤ high) :
    step (some ⟨b, needed + 2, low, high⟩) (n + 0x80) = ([], some ⟨b * 64 + n, needed + 1, 0x80, 0xBF⟩) := by
  rw [step_next hlow hhigh]
  simp [Pending.next]

lemma step_two (hlow : 2 ≤ n) (hhigh : n < 32) : step none (n + 0xC0) = ([], some ⟨n, 1, 0x80, 0xBF⟩) := by
  have hlead : lead (n + 0xC0) = some ⟨n, 1, 0x80, 0xBF⟩ := by
    rw [lead, if_pos (by omega), Nat.add_sub_cancel]
  simp only [step, start]
  rw [if_neg (by omega), hlead]

lemma step_three (hhigh : n < 16) : step none (n + 0xE0) =
    ([], some ⟨n, 2, if n = 0 then 0xA0 else 0x80, if n = 13 then 0x9F else 0xBF⟩) := by
  have hlead : lead (n + 0xE0) = some ⟨n, 2, if n = 0 then 0xA0 else 0x80, if n = 13 then 0x9F else 0xBF⟩ := by
    rw [lead, if_neg (by omega), if_pos (by omega), Nat.add_sub_cancel]
    simp
  simp only [step, start]
  rw [if_neg (by omega), hlead]

lemma step_four (hhigh : n < 5) : step none (n + 0xF0) =
    ([], some ⟨n, 3, if n = 0 then 0x90 else 0x80, if n = 4 then 0x8F else 0xBF⟩) := by
  have hlead : lead (n + 0xF0) = some ⟨n, 3, if n = 0 then 0x90 else 0x80, if n = 4 then 0x8F else 0xBF⟩ := by
    rw [lead, if_neg (by omega), if_neg (by omega), if_pos (by omega), Nat.add_sub_cancel]
    simp
  simp only [step, start]
  rw [if_neg (by omega), hlead]

lemma valid (c : Char) : c.toNat < 0xD800 ∨ 0xDFFF < c.toNat ∧ c.toNat < 0x110000 := c.valid

/-- The bytes of a character, by the size of its number. -/
lemma decodeFrom_char : decodeFrom none (String.utf8EncodeChar c ++ bs) = c :: decodeFrom none bs := by
  have hvalid := valid c
  have hchar : Char.ofNat c.toNat = c := Char.ofNat_toNat c
  have henc : String.utf8EncodeChar c = if c.toNat ≤ 0x7F then [UInt8.ofNat c.toNat]
    else if c.toNat ≤ 0x7FF then [UInt8.ofNat (c.toNat / 64 % 32 + 0xC0), UInt8.ofNat (c.toNat % 64 + 0x80)]
    else if c.toNat ≤ 0xFFFF then [UInt8.ofNat (c.toNat / 4096 % 16 + 0xE0), UInt8.ofNat (c.toNat / 64 % 64 + 0x80),
      UInt8.ofNat (c.toNat % 64 + 0x80)]
    else [UInt8.ofNat (c.toNat / 262144 % 8 + 0xF0), UInt8.ofNat (c.toNat / 4096 % 64 + 0x80),
      UInt8.ofNat (c.toNat / 64 % 64 + 0x80), UInt8.ofNat (c.toNat % 64 + 0x80)] := rfl
  rw [henc]
  generalize c.toNat = n at hvalid hchar
  split
  · rw [List.cons_append, decodeFrom_ofNat (by omega)]
    simp only [step, start]
    rw [if_pos (by omega), hchar]
    rfl
  split
  · have hvalue : n / 64 % 32 * 64 + n % 64 = n := by omega
    simp only [List.cons_append, List.nil_append]
    rw [decodeFrom_ofNat (by omega), step_two (by omega) (by omega), decodeFrom_ofNat (by omega), step_last (by omega),
      hvalue, hchar]
    rfl
  split
  · have hvalue : (n / 4096 % 16 * 64 + n / 64 % 64) * 64 + n % 64 = n := by omega
    simp only [List.cons_append, List.nil_append]
    rw [decodeFrom_ofNat (by omega), step_three (by omega), decodeFrom_ofNat (by omega),
      step_more (by split <;> omega) (by split <;> omega), decodeFrom_ofNat (by omega), step_last (by omega),
      hvalue, hchar]
    rfl
  · have hvalue : ((n / 262144 % 8 * 64 + n / 4096 % 64) * 64 + n / 64 % 64) * 64 + n % 64 = n := by omega
    simp only [List.cons_append, List.nil_append]
    rw [decodeFrom_ofNat (by omega), step_four (by omega), decodeFrom_ofNat (by omega),
      step_more (by split <;> omega) (by split <;> omega), decodeFrom_ofNat (by omega),
      step_more (by omega) (by omega), decodeFrom_ofNat (by omega), step_last (by omega), hvalue, hchar]
    rfl

lemma decode_encode (cs : List Char) : decode (encode cs) = cs := by
  rw [encode, decode]
  induction cs with
  | nil => rfl
  | cons c cs ih => rw [List.flatMap_cons, decodeFrom_char, ih]

lemma encode_injective : Function.Injective encode := Function.LeftInverse.injective decode_encode

end RoundTrip

end ChameleonVault.Encoding.Utf8
