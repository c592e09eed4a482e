import ChameleonVault.Encoding.Utf16

/-! Base64 with padding, and the lenient reading of it. -/

namespace ChameleonVault.Encoding.Base64

section Digits

def alphabet : List Char := "ABCDEFGHIJKLMNOPQRSTUVWXYZabcdefghijklmnopqrstuvwxyz0123456789+/".toList

def digit (n : ℕ) : Char := alphabet.getD n 'A'

def urlSafe (c : Char) : Char := if c = '-' then '+' else if c = '_' then '/' else c

def value (c : Char) : Option ℕ := alphabet.idxOf? (urlSafe c)

/-- `[A-Za-z0-9+/=]` -/
def isChar (c : Char) : Bool := c ∈ alphabet || c == '='

/-- The low bytes of the code units, as which a character is read. -/
def narrow (c : Char) : List Char := (Utf16.units c).map fun unit => Char.ofNat (unit.toNat % 256)

lemma digit_spec : ∀ n < 64, value (digit n) = some n ∧ isChar (digit n) = true ∧ digit n ≠ '=' := by
  decide +kernel

lemma narrow_of_lt {c : Char} (h : c.toNat < 256) : narrow c = [c] := by
  have hunit : (UInt16.ofNat c.toNat).toNat = c.toNat := UInt16.toNat_ofNat_of_lt (by rw [UInt16.size]; omega)
  rw [narrow, Utf16.units, if_pos (by omega), List.map_singleton, hunit, Nat.mod_eq_of_lt h, Char.ofNat_toNat]

lemma toNat_of_isChar {c : Char} (h : isChar c = true) : c.toNat < 128 := by
  have hall : ('=' :: alphabet).all (fun c => c.toNat < 128) = true := by decide +kernel
  simp only [isChar, Bool.or_eq_true, decide_eq_true_eq, beq_iff_eq] at h
  exact of_decide_eq_true (List.all_eq_true.mp hall c (List.mem_cons.mpr h.symm))

lemma narrow_of_isChar {c : Char} (h : isChar c = true) : narrow c = [c] :=
  narrow_of_lt (Nat.lt_trans (toNat_of_isChar h) (by decide))

end Digits

section Coding

def byte (n : ℕ) : UInt8 := UInt8.ofNat n

def encode : List UInt8 → List Char
  | [] => []
  | [a] => [digit (a.toNat / 4), digit (a.toNat % 4 * 16), '=', '=']
  | [a, b] => [digit (a.toNat / 4), digit (a.toNat % 4 * 16 + b.toNat / 16), digit (b.toNat % 16 * 4), '=']
  | a :: b :: c :: bs =>
    [digit (a.toNat / 4), digit (a.toNat % 4 * 16 + b.toNat / 16), digit (b.toNat % 16 * 4 + c.toNat / 64),
      digit (c.toNat % 64)] ++ encode bs

def bytes : List ℕ → List UInt8
  | a :: b :: c :: d :: ns => [byte (a * 4 + b / 16), byte (b % 16 * 16 + c / 4), byte (c % 4 * 64 + d)] ++ bytes ns
  | [a, b, c] => [byte (a * 4 + b / 16), byte (b % 16 * 16 + c / 4)]
  | [a, b] => [byte (a * 4 + b / 16)]
  | _ => []

def sextets (cs : List Char) : List ℕ := ((cs.flatMap narrow).takeWhile (· ≠ '=')).filterMap value

/-- What is no digit is passed over, and all that follows the padding. -/
def decode (cs : List Char) : List UInt8 := bytes (sextets cs)

end Coding

section RoundTrip

variable {bs : List UInt8} {a b c : UInt8} {n m k l : ℕ} {cs : List Char}

lemma sextets_digit (hn : n < 64) : sextets (digit n :: cs) = n :: sextets cs := by
  obtain ⟨hvalue, hchar, hpad⟩ := digit_spec n hn
  simp [sextets, narrow_of_isChar hchar, hpad, hvalue]

lemma sextets_pad : sextets ('=' :: cs) = [] := by
  have hpad : narrow '=' = ['='] := by decide
  simp [sextets, hpad]

lemma byte_eq (h : n = a.toNat) : byte n = a := by rw [byte, h, UInt8.ofNat_toNat]

lemma decode_encode (bs : List UInt8) : decode (encode bs) = bs := by
  rw [decode]
  induction bs using encode.induct with
  | case1 => rfl
  | case2 a =>
    have ha := a.toNat_lt
    rw [encode, sextets_digit (by omega), sextets_digit (by omega), sextets_pad, bytes, @byte_eq a _ (by omega)]
  | case3 a b =>
    have ha := a.toNat_lt
    have hb := b.toNat_lt
    rw [encode, sextets_digit (by omega), sextets_digit (by omega), sextets_digit (by omega), sextets_pad, bytes,
      @byte_eq a _ (by omega), @byte_eq b _ (by omega)]
  | case4 a b c bs ih =>
    have ha := a.toNat_lt
    have hb := b.toNat_lt
    have hc := c.toNat_lt
    simp only [encode, List.cons_append, List.nil_append]
    rw [sextets_digit (by omega), sextets_digit (by omega), sextets_digit (by omega), sextets_digit (by omega), bytes, ih,
      @byte_eq a _ (by omega), @byte_eq b _ (by omega), @byte_eq c _ (by omega)]
    rfl

lemma isChar_encode (bs : List UInt8) : (encode bs).all isChar = true := by
  have hdigit {n : ℕ} (hn : n < 64) : isChar (digit n) = true := (digit_spec n hn).2.1
  have hpad : isChar '=' = true := by decide
  induction bs using encode.induct with
  | case1 => rfl
  | case2 a =>
    have ha := a.toNat_lt
    simp [encode, hpad, hdigit (show a.toNat / 4 < 64 by omega), hdigit (show a.toNat % 4 * 16 < 64 by omega)]
  | case3 a b =>
    have ha := a.toNat_lt
    have hb := b.toNat_lt
    simp [encode, hpad, hdigit (show a.toNat / 4 < 64 by omega),
      hdigit (show a.toNat % 4 * 16 + b.toNat / 16 < 64 by omega), hdigit (show b.toNat % 16 * 4 < 64 by omega)]
  | case4 a b c bs ih =>
    have ha := a.toNat_lt
    have hb := b.toNat_lt
    have hc := c.toNat_lt
    simp only [List.all_eq_true] at ih
    simp [encode, hdigit (show a.toNat / 4 < 64 by omega), hdigit (show a.toNat % 4 * 16 + b.toNat / 16 < 64 by omega),
      hdigit (show b.toNat % 16 * 4 + c.toNat / 64 < 64 by omega), hdigit (show c.toNat % 64 < 64 by omega)]
    exact ih

lemma encode_ne_nil (h : bs ≠ []) : encode bs ≠ [] := by
  induction bs using encode.induct with
  | case1 => contradiction
  | case2 a => exact List.cons_ne_nil _ _
  | case3 a b => exact List.cons_ne_nil _ _
  | case4 a b c bs ih => exact List.cons_ne_nil _ _

end RoundTrip

section UrlSafe

def toUrl (c : Char) : Char := if c = '+' then '-' else if c = '/' then '_' else c

/-- The alphabet for URLs, without padding. -/
def encodeUrl (bs : List UInt8) : List Char := ((encode bs).takeWhile (· ≠ '=')).map toUrl

variable {bs : List UInt8} {c : Char} {cs : List Char}

lemma value_toUrl (c : Char) : value (toUrl c) = value c := by
  simp only [value, urlSafe, toUrl]
  split_ifs with h h' <;> simp_all

lemma toUrl_ne_pad (h : c ≠ '=') : toUrl c ≠ '=' := by
  simp only [toUrl]
  split_ifs
  · decide
  · decide
  · exact h

lemma narrow_toUrl (h : isChar c = true) : narrow (toUrl c) = [toUrl c] := by
  have hlt := toNat_of_isChar h
  refine narrow_of_lt ?_
  simp only [toUrl]
  split_ifs
  · decide
  · decide
  · omega

lemma decode_encodeUrl (bs : List UInt8) : decode (encodeUrl bs) = bs := by
  have hcons {c : Char} {cs : List Char} (hc : c ≠ '=') :
      (c :: cs).takeWhile (· ≠ '=') = c :: cs.takeWhile (· ≠ '=') := by simp [hc]
  have hsextets (cs : List Char) (hcs : ∀ c ∈ cs, isChar c = true) :
      sextets ((cs.takeWhile (· ≠ '=')).map toUrl) = sextets cs := by
    induction cs with
    | nil => rfl
    | cons c cs ih =>
      obtain ⟨hc, hcs⟩ := List.forall_mem_cons.mp hcs
      by_cases hpad : c = '='
      · rw [hpad, sextets_pad]
        rfl
      · have ih := ih hcs
        simp only [sextets] at ih ⊢
        rw [hcons hpad, List.map_cons, List.flatMap_cons, List.flatMap_cons, narrow_toUrl hc, narrow_of_isChar hc,
          List.singleton_append, List.singleton_append, hcons hpad, hcons (toUrl_ne_pad hpad), List.filterMap_cons,
          List.filterMap_cons, value_toUrl, ih]
  rw [decode, encodeUrl, hsextets _ fun c hc => List.all_eq_true.mp (isChar_encode bs) c hc, ← decode, decode_encode]

/-- No sign of it is a dot. -/
lemma encodeUrl_no_dot (bs : List UInt8) : ∀ c ∈ encodeUrl bs, c ≠ '.' := by
  have hdot : isChar '.' = false := by decide
  rintro c hc rfl
  obtain ⟨c, hmem, heq⟩ := List.mem_map.mp hc
  have hchar : isChar c = true := List.all_eq_true.mp (isChar_encode bs) c (List.takeWhile_subset _ hmem)
  simp only [toUrl] at heq
  split_ifs at heq
  · cases heq
  · cases heq
  · rw [heq, hdot] at hchar
    cases hchar

end UrlSafe

end ChameleonVault.Encoding.Base64
