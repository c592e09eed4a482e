import Mathlib.Data.List.Basic

/-! Percent-encoding of a string's UTF-8 bytes. -/

namespace ChameleonVault.Encoding

def isUnreserved (b : ℕ) : Bool :=
  ('A'.toNat ≤ b && b ≤ 'Z'.toNat) || ('a'.toNat ≤ b && b ≤ 'z'.toNat) || ('0'.toNat ≤ b && b ≤ '9'.toNat)
    || b = 0x27 || b ∈ ['-', '_', '.', '!', '~', '*', '(', ')'].map Char.toNat

def hexDigit (n : ℕ) : Char := Char.ofNat (if n < 10 then '0'.toNat + n else 'A'.toNat + (n - 10))
def hexValue (c : Char) : ℕ := if c.toNat < 'A'.toNat then c.toNat - '0'.toNat else c.toNat - 'A'.toNat + 10

def encodeByte (b : ℕ) : List Char :=
  if isUnreserved b then [Char.ofNat b] else ['%', hexDigit (b / 16), hexDigit (b % 16)]

def bytes (s : String) : List ℕ := s.toUTF8.data.toList.map UInt8.toNat

def encodeURIComponent (s : String) : String := String.ofList ((bytes s).flatMap encodeByte)

def decodeByte : List Char → Option (ℕ × List Char)
  | '%' :: h :: l :: cs => some (16 * hexValue h + hexValue l, cs)
  | c :: cs => some (c.toNat, cs)
  | [] => none

lemma unreserved_spec : ∀ b < 256, isUnreserved b = true → (Char.ofNat b).toNat = b ∧ Char.ofNat b ≠ '%' := by
  decide +kernel

lemma hexDigit_spec : ∀ b < 256, 16 * hexValue (hexDigit (b / 16)) + hexValue (hexDigit (b % 16)) = b := by
  decide +kernel

lemma encodeByte_spec : ∀ b < 256, ':' ∉ encodeByte b ∧ '/' ∉ encodeByte b := by
  decide +kernel

lemma decodeByte_encodeByte {b : ℕ} (hb : b < 256) (cs : List Char) :
    decodeByte (encodeByte b ++ cs) = some (b, cs) := by
  simp only [encodeByte]
  split
  · rename_i hu
    obtain ⟨hval, hne⟩ := unreserved_spec b hb hu
    rw [List.singleton_append, decodeByte]
    · rw [hval]
    · rintro h l cs' he -
      exact hne he
  · simp [decodeByte, hexDigit_spec b hb]

lemma encodeByte_inj {b b' : ℕ} (hb : b < 256) (hb' : b' < 256) {cs cs' : List Char}
    (h : encodeByte b ++ cs = encodeByte b' ++ cs') : b = b' ∧ cs = cs' := by
  have he := decodeByte_encodeByte hb cs
  rw [h, decodeByte_encodeByte hb' cs'] at he
  obtain ⟨rfl, rfl⟩ := Prod.mk.inj (Option.some.inj he)
  exact ⟨rfl, rfl⟩

lemma encodeByte_ne_nil (b : ℕ) : encodeByte b ≠ [] := by
  simp only [encodeByte]
  split <;> exact List.cons_ne_nil _ _

lemma flatMap_encodeByte_inj {bs bs' : List ℕ} (hb : ∀ b ∈ bs, b < 256) (hb' : ∀ b ∈ bs', b < 256)
    (h : bs.flatMap encodeByte = bs'.flatMap encodeByte) : bs = bs' := by
  induction bs generalizing bs' with
  | nil =>
    cases bs' with
    | nil => rfl
    | cons b' bs' =>
      have hn : encodeByte b' = [] := (List.append_eq_nil_iff.mp h.symm).1
      exact absurd hn (encodeByte_ne_nil b')
  | cons b bs ih =>
    cases bs' with
    | nil =>
      have hn : encodeByte b = [] := (List.append_eq_nil_iff.mp h).1
      exact absurd hn (encodeByte_ne_nil b)
    | cons b' bs' =>
      simp only [List.mem_cons, forall_eq_or_imp] at hb hb'
      rw [List.flatMap_cons, List.flatMap_cons] at h
      obtain ⟨rfl, hrest⟩ := encodeByte_inj hb.1 hb'.1 h
      rw [ih hb.2 hb'.2 hrest]

lemma bytes_lt {s : String} {b : ℕ} (h : b ∈ bytes s) : b < 256 := by
  obtain ⟨c, -, rfl⟩ := List.mem_map.mp h
  exact c.toNat_lt

lemma bytes_inj {s t : String} (h : bytes s = bytes t) : s = t := by
  apply String.toByteArray_inj.mp
  apply ByteArray.ext
  exact Array.toList_inj.mp (List.map_injective_iff.mpr (fun _ _ => UInt8.toNat_inj.mp) h)

lemma encodeURIComponent_inj {s t : String} (h : encodeURIComponent s = encodeURIComponent t) : s = t :=
  bytes_inj (flatMap_encodeByte_inj (fun _ => bytes_lt) (fun _ => bytes_lt) (String.ofList_injective h))

lemma colon_not_mem_encodeURIComponent (s : String) : ':' ∉ (encodeURIComponent s).toList := by
  rw [encodeURIComponent, String.toList_ofList, List.mem_flatMap]
  rintro ⟨b, hb, hc⟩
  exact (encodeByte_spec b (bytes_lt hb)).1 hc

lemma slash_not_mem_encodeURIComponent (s : String) : '/' ∉ (encodeURIComponent s).toList := by
  rw [encodeURIComponent, String.toList_ofList, List.mem_flatMap]
  rintro ⟨b, hb, hc⟩
  exact (encodeByte_spec b (bytes_lt hb)).2 hc

/-- What comes after the last separator can be told from what comes before it. -/
lemma append_separator_inj {c : Char} {a b a' b' : List Char} (hb : c ∉ b) (hb' : c ∉ b')
    (h : a ++ c :: b = a' ++ c :: b') : a = a' ∧ b = b' := by
  rcases List.append_eq_append_iff.mp h with ⟨between, rfl, hc⟩ | ⟨between, rfl, hc⟩
  · cases between with
    | nil => simpa using hc
    | cons d between =>
      have hm : c ∈ b := by rw [(List.cons.inj hc).2]; simp
      exact absurd hm hb
  · cases between with
    | nil => simpa [eq_comm] using hc
    | cons d between =>
      have hm : c ∈ b' := by rw [(List.cons.inj hc).2]; simp
      exact absurd hm hb'

end ChameleonVault.Encoding
