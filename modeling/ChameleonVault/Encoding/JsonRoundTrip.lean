import ChameleonVault.Encoding.Json

/-! What is read from a JSON text that was written is the value that was written. -/

namespace ChameleonVault.Encoding.Json

section Strings

variable {c : Char} {rest : List Char}

lemma hexValue_digit : ∀ d < 16, hexValue (hexDigit d) = some d := by decide


lemma readUnits_escape {e : Char} (hu : e ≠ 'u') (he : unescape e = some c) :
    readUnits ('\\' :: e :: rest) = prepend (Utf16.units c) (readUnits rest) := by
  conv_lhs => rw [readUnits.eq_def]
  have hslash : '\\' ≠ '"' := by decide
  simp only [if_neg hslash, if_true, if_neg hu, he, Option.bind_some]

lemma readUnits_plain (hquote : c ≠ '"') (hslash : c ≠ '\\') (hplain : ¬ c.toNat < 0x20) :
    readUnits (c :: rest) = prepend (Utf16.units c) (readUnits rest) := by
  conv_lhs => rw [readUnits.eq_def]
  simp only [if_neg hquote, if_neg hslash, if_neg hplain]

lemma readUnits_control (h : c.toNat < 0x20) :
    readUnits ('\\' :: 'u' :: '0' :: '0' :: hexDigit (c.toNat / 16) :: hexDigit (c.toNat % 16) :: rest) =
      prepend (Utf16.units c) (readUnits rest) := by
  have hzero : hexValue '0' = some 0 := by decide
  have hunit : hexUnit '0' '0' (hexDigit (c.toNat / 16)) (hexDigit (c.toNat % 16)) = some (UInt16.ofNat c.toNat) := by
    have hvalue : c.toNat / 16 * 16 + c.toNat % 16 = c.toNat := by omega
    simp [hexUnit, hzero, hexValue_digit _ (show c.toNat / 16 < 16 by omega),
      hexValue_digit _ (show c.toNat % 16 < 16 by omega), -UInt16.ofNat_add, -UInt16.ofNat_mul, hvalue]
  have hunits : Utf16.units c = [UInt16.ofNat c.toNat] := if_pos (by omega)
  conv_lhs => rw [readUnits.eq_def]
  have hslash : '\\' ≠ '"' := by decide
  simp only [if_neg hslash, if_true, hunit, Option.bind_some, hunits]

lemma readUnits_quoteChar (c : Char) (rest : List Char) :
    readUnits (quoteChar c ++ rest) = prepend (Utf16.units c) (readUnits rest) := by
  have hcode {n : ℕ} {d : Char} (h : c.toNat = n) (hd : Char.ofNat n = d) : d = c := by
    rw [← hd, ← h, Char.ofNat_toNat]
  rw [quoteChar]
  split
  case isTrue h =>
    subst h
    exact readUnits_escape (by decide) rfl
  rename_i hquote
  split
  case isTrue h =>
    subst h
    exact readUnits_escape (by decide) rfl
  rename_i hslash
  split
  case isTrue h => exact readUnits_escape (by decide) (congrArg some (hcode h rfl))
  split
  case isTrue h => exact readUnits_escape (by decide) (congrArg some (hcode h rfl))
  split
  case isTrue h => exact readUnits_escape (by decide) (congrArg some (hcode h rfl))
  split
  case isTrue h => exact readUnits_escape (by decide) (congrArg some (hcode h rfl))
  split
  case isTrue h => exact readUnits_escape (by decide) (congrArg some (hcode h rfl))
  split
  case isTrue h => exact readUnits_control h
  rename_i hplain
  exact readUnits_plain hquote hslash hplain

end Strings

section Numbers

variable {ds rest : List Char} {n : ℕ}

def begins (p : Char → Bool) (cs : List Char) : Bool := cs.head?.any p

lemma span_digits (hd : ∀ c ∈ ds, c.isDigit = true) (hr : begins Char.isDigit rest = false) :
    (ds ++ rest).takeWhile Char.isDigit = ds ∧ (ds ++ rest).dropWhile Char.isDigit = rest := by
  have hrest : rest.takeWhile Char.isDigit = [] ∧ rest.dropWhile Char.isDigit = rest := by
    cases rest with
    | nil => exact ⟨rfl, rfl⟩
    | cons c cs =>
      have hc : c.isDigit = false := hr
      simp [hc]
  rw [List.takeWhile_append_of_pos hd, List.dropWhile_append_of_pos hd, hrest.1, hrest.2, List.append_nil]
  exact ⟨rfl, rfl⟩

lemma isDigit_toDigits (n : ℕ) : ∀ c ∈ Nat.toDigits 10 n, c.isDigit = true :=
  fun _ hc => Nat.isDigit_of_mem_toDigits (by decide) (by decide) hc

lemma digitChar_ne_zero : ∀ n < 10, 0 < n → Nat.digitChar n ≠ '0' := by decide

lemma toDigits_head (hn : 0 < n) : ∃ c cs, Nat.toDigits 10 n = c :: cs ∧ c ≠ '0' := by
  induction n using Nat.strongRecOn with
  | _ n ih =>
    by_cases hlt : n < 10
    · exact ⟨_, [], Nat.toDigits_of_lt_base hlt, digitChar_ne_zero n hlt hn⟩
    · obtain ⟨c, cs, hd, hc⟩ := ih (n / 10) (by omega) (by omega)
      refine ⟨c, cs ++ [Nat.digitChar (n % 10)], ?_, hc⟩
      rw [Nat.toDigits_of_base_le (by decide) (by omega), hd]
      rfl

lemma readWhole_toDigits (n : ℕ) (hr : begins Char.isDigit rest = false) :
    readWhole (Nat.toDigits 10 n ++ rest) = some (n, rest) := by
  obtain ⟨htake, hdrop⟩ := span_digits (isDigit_toDigits n) hr
  rcases Nat.eq_zero_or_pos n with rfl | hn
  · rfl
  · obtain ⟨c, cs, hd, hc⟩ := toDigits_head hn
    have hdigit : c.isDigit = true := isDigit_toDigits n c (hd ▸ List.mem_cons_self)
    have hread : Nat.ofDigitChars 10 (c :: cs) 0 = n := by rw [← hd, Nat.ofDigitChars_ten_toDigits]
    rw [hd] at htake hdrop ⊢
    rw [List.cons_append] at htake hdrop ⊢
    simp only [readWhole, if_neg hc, hdigit, if_true, htake, hdrop, hread]

lemma readPower_toDigits (n : ℕ) (hr : begins Char.isDigit rest = false) :
    readPower (Nat.toDigits 10 n ++ rest) = some (n, rest) := by
  obtain ⟨htake, hdrop⟩ := span_digits (isDigit_toDigits n) hr
  rw [readPower, htake, hdrop, if_neg Nat.toDigits_ne_nil, Nat.ofDigitChars_ten_toDigits]

lemma digitValue_digitChar : ∀ d : Fin 10, digitValue (Nat.digitChar d) = d := by decide

lemma isDigit_digitChar : ∀ d : Fin 10, (Nat.digitChar d).isDigit = true := by decide

lemma readFraction_fractionText (fraction : List (Fin 10)) (hr : begins Char.isDigit rest = false)
    (hdot : begins (· == '.') rest = false) : readFraction (fractionText fraction ++ rest) = some (fraction, rest) := by
  by_cases hf : fraction = []
  · subst hf
    cases rest with
    | nil => rfl
    | cons c cs =>
      have hc : c ≠ '.' := by simpa [begins] using hdot
      simp only [fractionText, if_true, List.nil_append, readFraction, if_neg hc]
  · have hdigits : ∀ c ∈ fraction.map (fun d : Fin 10 => Nat.digitChar d), c.isDigit = true := by
      intro c hc
      obtain ⟨d, -, rfl⟩ := List.mem_map.mp hc
      exact isDigit_digitChar d
    obtain ⟨htake, hdrop⟩ := span_digits hdigits hr
    have hvalues : (fraction.map fun d : Fin 10 => Nat.digitChar d).map digitValue = fraction := by
      rw [List.map_map]
      exact (List.map_congr_left fun d _ => digitValue_digitChar d).trans (List.map_id _)
    rw [fractionText, if_neg hf, List.cons_append, readFraction, if_pos rfl, htake, hdrop, hvalues, if_neg]
    simpa using hf

lemma readExponent_exponentText (exponent : ℤ) (hr : begins Char.isDigit rest = false)
    (he : begins (fun c => c == 'e' || c == 'E') rest = false) :
    readExponent (exponentText exponent ++ rest) = some (exponent, rest) := by
  by_cases hzero : exponent = 0
  · subst hzero
    cases rest with
    | nil => rfl
    | cons c cs =>
      have hc : ¬ (c = 'e' ∨ c = 'E') := by simpa [begins] using he
      simp only [exponentText, if_true, List.nil_append, readExponent, if_neg hc]
  · rw [exponentText, if_neg hzero]
    by_cases hneg : exponent < 0
    · have habs : -(exponent.natAbs : ℤ) = exponent := by omega
      rw [if_pos hneg, List.cons_append, List.cons_append, readExponent, if_pos (.inl rfl)]
      simp only [if_true, readPower_toDigits _ hr, Option.map_some, habs]
    · have habs : (exponent.natAbs : ℤ) = exponent := by omega
      have hsign : '+' ≠ '-' := by decide
      rw [if_neg hneg, List.cons_append, List.cons_append, readExponent, if_pos (.inl rfl)]
      simp only [if_neg hsign, if_true, readPower_toDigits _ hr, Option.map_some, habs]

/-- What can follow a value inside an array or an object, and at the end of a text. -/
def Delimited (rest : List Char) : Prop := begins (fun c => !(c == ',' || c == ']' || c == '}')) rest = false

lemma Delimited.begins {p : Char → Bool} (h : Delimited rest) (hp : p ',' = false ∧ p ']' = false ∧ p '}' = false) :
    begins p rest = false := by
  cases rest with
  | nil => rfl
  | cons c cs =>
    have hc : c = ',' ∨ c = ']' ∨ c = '}' := by
      simpa [Delimited, Json.begins, or_iff_not_imp_left] using h
    rcases hc with rfl | rfl | rfl
    · exact hp.1
    · exact hp.2.1
    · exact hp.2.2

lemma begins_exponentText {p : Char → Bool} (exponent : ℤ) (he : p 'e' = false) (hr : begins p rest = false) :
    begins p (exponentText exponent ++ rest) = false := by
  rw [exponentText]
  split
  · exact hr
  · exact he

lemma begins_fractionText {p : Char → Bool} (fraction : List (Fin 10)) (hp : p '.' = false)
    (hr : begins p rest = false) : begins p (fractionText fraction ++ rest) = false := by
  rw [fractionText]
  split
  · exact hr
  · exact hp

lemma readMagnitude_text (negative : Bool) (n : Numeral) (hr : Delimited rest) :
    readMagnitude negative (Nat.toDigits 10 n.whole ++ (fractionText n.fraction ++ (exponentText n.exponent ++ rest))) =
      some (.number ⟨negative, n.whole, n.fraction, n.exponent⟩, rest) := by
  have hdigit : begins Char.isDigit rest = false := hr.begins (by decide)
  have hexponent : begins Char.isDigit (exponentText n.exponent ++ rest) = false :=
    begins_exponentText _ (by decide) hdigit
  have hdot : begins (· == '.') (exponentText n.exponent ++ rest) = false :=
    begins_exponentText _ (by decide) (hr.begins (by decide))
  rw [readMagnitude, readWhole_toDigits _ (begins_fractionText _ (by decide) hexponent)]
  simp only [Option.bind_eq_bind, Option.bind_some, readFraction_fractionText _ hexponent hdot,
    readExponent_exponentText _ hdigit (hr.begins (by decide)), Option.pure_def]

lemma toDigits_cons (n : ℕ) : ∃ c cs, Nat.toDigits 10 n = c :: cs ∧ c.isDigit = true := by
  obtain ⟨c, cs, h⟩ := List.exists_cons_of_ne_nil (Nat.toDigits_ne_nil (b := 10) (n := n))
  exact ⟨c, cs, h, isDigit_toDigits n c (h ▸ List.mem_cons_self)⟩

lemma readNumber_numeralText (n : Numeral) (hr : Delimited rest) :
    readNumber (numeralText n ++ rest) = some (.number n, rest) := by
  obtain ⟨negative, whole, fraction, exponent⟩ := n
  have hread := readMagnitude_text negative ⟨negative, whole, fraction, exponent⟩ hr
  cases negative with
  | true =>
    rw [numeralText, if_pos rfl, List.append_assoc, List.append_assoc, List.append_assoc]
    exact hread
  | false =>
    obtain ⟨c, cs, hd, hc⟩ := toDigits_cons whole
    have hminus : c ≠ '-' := by
      rintro rfl
      revert hc
      decide
    rw [numeralText, if_neg Bool.false_ne_true, List.nil_append, List.append_assoc, List.append_assoc]
    rw [hd] at hread ⊢
    rw [List.cons_append, readNumber, if_neg hminus]
    exact hread

end Numbers

section Values

variable {rest : List Char} {j : Json} {s : String} {n : ℕ}

/-- Values are built from values: the items of arrays and the fields of objects. -/
lemma nested {P : Json → Prop} (null : P .null) (bool : ∀ b, P (.bool b)) (number : ∀ n, P (.number n))
    (string : ∀ s, P (.string s)) (array : ∀ items, (∀ item ∈ items, P item) → P (.array items))
    (object : ∀ fields : List (String × Json), (∀ field ∈ fields, P field.2) → P (.object fields)) (j : Json) : P j := by
  refine @Json.rec P (fun items => ∀ item ∈ items, P item) (fun fields => ∀ field ∈ fields, P field.2)
    (fun field => P field.2) null bool number string array object ?_ ?_ ?_ ?_ ?_ j
  · exact List.forall_mem_nil _
  · exact fun item items h hs => List.forall_mem_cons.mpr ⟨h, hs⟩
  · exact List.forall_mem_nil _
  · exact fun field fields h hs => List.forall_mem_cons.mpr ⟨h, hs⟩
  · exact fun name value h => h

def writeField (field : String × Json) : List Char := quote field.1 ++ ':' :: write field.2

lemma writeItems_eq (items : List Json) : writeItems items = items.flatMap fun item => ',' :: write item := by
  induction items with
  | nil => rfl
  | cons item items ih => rw [writeItems, List.flatMap_cons, ih, List.cons_append]

lemma writeFields_eq (fields : List (String × Json)) :
    writeFields fields = fields.flatMap fun field => ',' :: writeField field := by
  induction fields with
  | nil => rfl
  | cons field fields ih =>
    obtain ⟨name, value⟩ := field
    simp only [writeFields, List.flatMap_cons, ih, writeField, List.cons_append, List.append_assoc]

/-- The first character says what kind of value it is, and is no blank. -/
def isFirst (c : Char) : Bool := c == '"' || c == '[' || c == '{' || c == 'n' || c == 't' || c == 'f' || c == '-' || c.isDigit

lemma write_cons (j : Json) : ∃ c cs, write j = c :: cs ∧ isFirst c = true := by
  cases j with
  | null => exact ⟨_, _, rfl, rfl⟩
  | bool b => cases b <;> exact ⟨_, _, rfl, rfl⟩
  | number n =>
    obtain ⟨negative, whole, fraction, exponent⟩ := n
    cases negative with
    | true => exact ⟨_, _, rfl, rfl⟩
    | false =>
      obtain ⟨c, cs, hd, hc⟩ := toDigits_cons whole
      refine ⟨c, cs ++ (fractionText fraction ++ exponentText exponent), ?_, by simp [isFirst, hc]⟩
      rw [write, numeralText, if_neg Bool.false_ne_true, List.nil_append, hd, List.cons_append]
  | string s => exact ⟨_, _, rfl, rfl⟩
  | array items => cases items <;> exact ⟨_, _, by rw [write], rfl⟩
  | object fields => cases fields <;> exact ⟨_, _, by rw [write], rfl⟩

lemma isBlank_of_isFirst {c : Char} (h : isFirst c = true) : isBlank c = false := by
  rw [Bool.eq_false_iff]
  intro hb
  simp only [isBlank, Bool.or_eq_true, decide_eq_true_eq] at hb
  have hcode {n : ℕ} (hn : c.toNat = n) : Char.ofNat n = c := hn ▸ Char.ofNat_toNat c
  rcases hb with ((hb | hb) | hb) | hb
  · subst hb
    contradiction
  all_goals
    have hc := hcode hb
    subst hc
    contradiction

lemma skip_cons {c : Char} {cs : List Char} (h : isBlank c = false) : skip (c :: cs) = c :: cs := by
  rw [skip, List.dropWhile_cons_of_neg (by rw [h]; exact Bool.false_ne_true)]

lemma readString_quote (s : String) (rest : List Char) :
    ∃ cs, quote s ++ rest = '"' :: cs ∧ readString cs = some (s, rest) := by
  refine ⟨s.toList.flatMap quoteChar ++ '"' :: rest, by simp [quote], ?_⟩
  have hunits (cs : List Char) :
      readUnits (cs.flatMap quoteChar ++ '"' :: rest) = some (Utf16.ofChars cs, rest) := by
    induction cs with
    | nil =>
      conv_lhs => rw [List.flatMap_nil, List.nil_append, readUnits.eq_def]
      rfl
    | cons c cs ih =>
      rw [List.flatMap_cons, List.append_assoc, readUnits_quoteChar, ih]
      rfl
  rw [readString, hunits, Option.map_some, Utf16.chars_ofChars, String.ofList_toList]

section Sequences

variable {α : Type} {close : Char} {read : List Char → Option (α × List Char)} {text : α → List Char} {a : α} {as : List α}

lemma delimited_close (h : close = ']' ∨ close = '}') : Delimited (close :: rest) ∧ isBlank close = false ∧ close ≠ ',' := by
  rcases h with rfl | rfl
  · exact ⟨rfl, rfl, by decide⟩
  · exact ⟨rfl, rfl, by decide⟩

variable (rest) in
lemma readSequence_text (hclose : close = ']' ∨ close = '}')
    (hread : ∀ b ∈ a :: as, ∀ rest, Delimited rest → read (text b ++ rest) = some (b, rest)) (hn : as.length < n) :
    readSequence close read n (text a ++ (as.flatMap (fun a => ',' :: text a) ++ close :: rest)) =
      some (a :: as, rest) := by
  obtain ⟨hdelimited, hblank, hcomma⟩ := @delimited_close rest _ hclose
  induction as generalizing a n with
  | nil =>
    cases n with
    | zero => simp at hn
    | succ n =>
      have ha := hread a List.mem_cons_self (close :: rest) hdelimited
      rw [readSequence, List.flatMap_nil, List.nil_append, ha]
      simp only [Option.bind_eq_bind, Option.bind_some, skip_cons hblank, if_neg hcomma, if_true]
  | cons b bs ih =>
    cases n with
    | zero => simp at hn
    | succ n =>
      have hrest : Delimited (',' :: (text b ++ (bs.flatMap (fun a => ',' :: text a) ++ close :: rest))) := rfl
      have ha := hread a List.mem_cons_self _ hrest
      have hb := ih (fun c hc => hread c (List.mem_cons_of_mem a hc)) (by simpa using hn)
      rw [readSequence, List.flatMap_cons, List.cons_append, List.cons_append, List.append_assoc, ha]
      simp only [Option.bind_eq_bind, Option.bind_some, skip_cons (show isBlank ',' = false from rfl), if_true, hb,
        Option.map_some]

variable (rest close) in
lemma readBracketed_text (hclose : close = ']' ∨ close = '}')
    (hread : ∀ b ∈ a :: as, ∀ rest, Delimited rest → read (text b ++ rest) = some (b, rest))
    (hfirst : ∃ c cs, text a = c :: cs ∧ isFirst c = true) :
    readBracketed close read (text a ++ (as.flatMap (fun a => ',' :: text a) ++ close :: rest)) =
      some (a :: as, rest) := by
  obtain ⟨c, cs, htext, hc⟩ := hfirst
  have hne : c ≠ close := by
    rintro rfl
    rcases hclose with rfl | rfl <;> contradiction
  have hlen : as.length < (text a ++ (as.flatMap (fun a => ',' :: text a) ++ close :: rest)).length := by
    have hle : as.length ≤ (as.flatMap fun a => ',' :: text a).length := by
      induction as with
      | nil => exact Nat.le_refl _
      | cons b bs ih =>
        have hb := ih (fun d hd => hread d (by grind))
        simp only [List.flatMap_cons, List.length_append, List.length_cons]
        omega
    simp only [List.length_append, List.length_cons]
    omega
  have hread := readSequence_text rest hclose hread hlen
  rw [htext] at hread ⊢
  rw [List.cons_append] at hread ⊢
  rw [readBracketed, skip_cons (isBlank_of_isFirst hc)]
  simp only [if_neg hne, hread]

end Sequences

lemma length_le_flatMap {α : Type} (text : α → List Char) {a : α} {as : List α} (h : a ∈ as) :
    (text a).length ≤ (as.flatMap text).length := by
  induction as with
  | nil => contradiction
  | cons b as ih =>
    simp only [List.flatMap_cons, List.length_append]
    rcases List.mem_cons.mp h with rfl | h
    · omega
    · have hle := ih h
      omega

lemma readLiteral_number {c : Char} {cs : List Char} (h : c = '-' ∨ c.isDigit = true) : readLiteral (c :: cs) = none := by
  have hn : c ≠ 'n' := by
    rintro rfl
    rcases h with h | h <;> contradiction
  have ht : c ≠ 't' := by
    rintro rfl
    rcases h with h | h <;> contradiction
  have hf : c ≠ 'f' := by
    rintro rfl
    rcases h with h | h <;> contradiction
  simp [readLiteral, List.isPrefixOf, Ne.symm hn, Ne.symm ht, Ne.symm hf]

lemma read_number (n : Numeral) (depth : ℕ) (hr : Delimited rest) :
    read (depth + 1) (numeralText n ++ rest) = some (.number n, rest) := by
  have hread := readNumber_numeralText n hr
  obtain ⟨c, cs, htext, hc⟩ : ∃ c cs, numeralText n = c :: cs ∧ (c = '-' ∨ c.isDigit = true) := by
    obtain ⟨negative, whole, fraction, exponent⟩ := n
    cases negative with
    | true => exact ⟨_, _, rfl, .inl rfl⟩
    | false =>
      obtain ⟨c, cs, hd, hc⟩ := toDigits_cons whole
      refine ⟨c, cs ++ (fractionText fraction ++ exponentText exponent), ?_, .inr hc⟩
      rw [numeralText, if_neg Bool.false_ne_true, List.nil_append, hd, List.cons_append]
  have hfirst : isFirst c = true := by
    rcases hc with rfl | hc
    · rfl
    · simp [isFirst, hc]
  have hkind : c ≠ '"' ∧ c ≠ '[' ∧ c ≠ '{' := by
    refine ⟨?_, ?_, ?_⟩ <;> rintro rfl <;> rcases hc with hc | hc <;> contradiction
  rw [htext] at hread ⊢
  rw [List.cons_append] at hread ⊢
  rw [read, skip_cons (isBlank_of_isFirst hfirst)]
  simp only [if_neg hkind.1, if_neg hkind.2.1, if_neg hkind.2.2, readLiteral_number hc, Option.orElse_none, hread]

lemma writeField_cons (field : String × Json) : ∃ c cs, writeField field = c :: cs ∧ isFirst c = true :=
  ⟨'"', _, List.cons_append, rfl⟩

lemma readField_write (field : String × Json) {read : List Char → Option (Json × List Char)}
    (hread : ∀ rest, Delimited rest → read (write field.2 ++ rest) = some (field.2, rest)) (rest : List Char)
    (hr : Delimited rest) : readField read (writeField field ++ rest) = some (field, rest) := by
  obtain ⟨name, value⟩ := field
  obtain ⟨cs, hcs, hname⟩ := readString_quote name (':' :: (write value ++ rest))
  rw [writeField, List.append_assoc, List.cons_append, hcs, readField, skip_cons (by rfl)]
  simp only [if_true, hname, Option.bind_eq_bind, Option.bind_some, skip_cons (show isBlank ':' = false from rfl),
    hread rest hr, Option.map_some]

lemma read_write (j : Json) : ∀ depth, (write j).length ≤ depth → ∀ rest, Delimited rest →
    read depth (write j ++ rest) = some (j, rest) := by
  induction j using nested with
  | null =>
    rintro (_ | depth) hd rest hr
    · simp [write] at hd
    · rfl
  | bool b =>
    rintro (_ | depth) hd rest hr
    · cases b <;> simp [write] at hd
    · cases b <;> rfl
  | number n =>
    rintro (_ | depth) hd rest hr
    · obtain ⟨c, cs, hc, -⟩ := write_cons (.number n)
      simp [hc] at hd
    · rw [write]
      exact read_number n depth hr
  | string s =>
    rintro (_ | depth) hd rest hr
    · simp [write, quote] at hd
    · obtain ⟨cs, hcs, hread⟩ := readString_quote s rest
      rw [write, hcs, read, skip_cons (by rfl)]
      simp only [if_true, hread, Option.map_some]
  | array items ih =>
    rintro (_ | depth) hd rest hr
    · obtain ⟨c, cs, hc, -⟩ := write_cons (.array items)
      simp [hc] at hd
    · cases items with
      | nil =>
        simp only [write, List.cons_append, List.nil_append]
        rfl
      | cons item items =>
        have hlen (b : Json) (hb : b ∈ item :: items) : (write b).length ≤ depth := by
          rw [write, writeItems_eq] at hd
          simp only [List.length_cons, List.length_append, List.length_nil] at hd
          rcases List.mem_cons.mp hb with rfl | hb
          · omega
          · have hle := length_le_flatMap (fun item => ',' :: write item) hb
            simp only [List.length_cons] at hle
            omega
        have hread := readBracketed_text rest ']' (.inl rfl)
          (fun b hb => ih b hb depth (hlen b hb)) (write_cons item)
        rw [write, writeItems_eq, List.cons_append, List.append_assoc, List.append_assoc, List.singleton_append, read,
          skip_cons (by rfl)]
        have hquote : '[' ≠ '"' := by decide
        simp only [if_neg hquote, if_true, hread, Option.map_some]
  | object fields ih =>
    rintro (_ | depth) hd rest hr
    · obtain ⟨c, cs, hc, -⟩ := write_cons (.object fields)
      simp [hc] at hd
    · cases fields with
      | nil =>
        simp only [write, List.cons_append, List.nil_append]
        rfl
      | cons field fields =>
        have htext : write (.object (field :: fields)) =
            '{' :: (writeField field ++ (fields.flatMap (fun field => ',' :: writeField field) ++ ['}'])) := by
          obtain ⟨name, value⟩ := field
          rw [write, writeFields_eq, writeField, List.append_assoc, List.cons_append]
        have hlen (f : String × Json) (hf : f ∈ field :: fields) : (write f.2).length ≤ depth := by
          rw [htext] at hd
          simp only [List.length_cons, List.length_append, List.length_nil] at hd
          have hfield (f : String × Json) : (write f.2).length ≤ (writeField f).length := by
            simp only [writeField, List.length_append, List.length_cons]
            omega
          rcases List.mem_cons.mp hf with rfl | hf
          · have hle := hfield f
            omega
          · have hle := length_le_flatMap (fun field => ',' :: writeField field) hf
            have hle' := hfield f
            simp only [List.length_cons] at hle
            omega
        have hread := readBracketed_text rest '}' (.inr rfl)
          (fun f hf => readField_write f fun rest hr => ih f hf depth (hlen f hf) rest hr) (writeField_cons field)
        have hquote : '{' ≠ '"' := by decide
        have hbracket : '{' ≠ '[' := by decide
        rw [htext, List.cons_append, List.append_assoc, List.append_assoc, List.singleton_append, read,
          skip_cons (by rfl)]
        simp only [if_neg hquote, if_neg hbracket, if_true, hread, Option.map_some]

/-- A text that was written is read as the value it was written for. -/
lemma parse_stringify (j : Json) : parse (stringify j) = some j := by
  have hread := read_write j (write j).length (Nat.le_refl _) [] rfl
  rw [List.append_nil] at hread
  simp only [parse, stringify, String.toList_ofList, hread]
  rfl

lemma stringify_injective : Function.Injective stringify := by
  intro j j' h
  have hparse := congrArg parse h
  rw [parse_stringify, parse_stringify] at hparse
  exact Option.some.inj hparse

end Values

end ChameleonVault.Encoding.Json
