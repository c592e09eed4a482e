import ChameleonVault.Encoding.Utf16
import Mathlib.Data.Int.Notation
import Mathlib.Data.Nat.Digits.Defs

/-! JSON texts: how a value is written without blanks, and how any text is read. -/

namespace ChameleonVault.Encoding

/-- The value of a decimal numeral; an empty fraction and a zero exponent are not written. -/
structure Numeral where
  negative : Bool := false
  whole : ℕ
  fraction : List (Fin 10) := []
  exponent : ℤ := 0
  deriving DecidableEq

inductive Json where
  | null
  | bool (b : Bool)
  | number (n : Numeral)
  | string (s : String)
  | array (items : List Json)
  | object (fields : List (String × Json))

namespace Json

section Writing

def hexDigit (n : ℕ) : Char := Nat.digitChar n

/-- A control character without a short escape is written by its number. -/
def quoteChar (c : Char) : List Char :=
  if c = '"' then ['\\', '"']
  else if c = '\\' then ['\\', '\\']
  else if c.toNat = 8 then ['\\', 'b']
  else if c.toNat = 9 then ['\\', 't']
  else if c.toNat = 10 then ['\\', 'n']
  else if c.toNat = 12 then ['\\', 'f']
  else if c.toNat = 13 then ['\\', 'r']
  else if c.toNat < 0x20 then ['\\', 'u', '0', '0', hexDigit (c.toNat / 16), hexDigit (c.toNat % 16)]
  else [c]

def quote (s : String) : List Char := '"' :: (s.toList.flatMap quoteChar ++ ['"'])

def fractionText (fraction : List (Fin 10)) : List Char :=
  if fraction = [] then [] else '.' :: fraction.map fun (d : Fin 10) => Nat.digitChar d

def exponentText (exponent : ℤ) : List Char :=
  if exponent = 0 then []
  else 'e' :: (if exponent < 0 then '-' else '+') :: Nat.toDigits 10 exponent.natAbs

def numeralText (n : Numeral) : List Char :=
  (if n.negative then ['-'] else []) ++ (Nat.toDigits 10 n.whole ++ (fractionText n.fraction ++ exponentText n.exponent))

mutual

def write : Json → List Char
  | .null => "null".toList
  | .bool true => "true".toList
  | .bool false => "false".toList
  | .number n => numeralText n
  | .string s => quote s
  | .array [] => ['[', ']']
  | .array (item :: items) => '[' :: (write item ++ (writeItems items ++ [']']))
  | .object [] => ['{', '}']
  | .object ((name, value) :: fields) => '{' :: (quote name ++ ':' :: (write value ++ (writeFields fields ++ ['}'])))

def writeItems : List Json → List Char
  | [] => []
  | item :: items => ',' :: (write item ++ writeItems items)

def writeFields : List (String × Json) → List Char
  | [] => []
  | (name, value) :: fields => ',' :: (quote name ++ ':' :: (write value ++ writeFields fields))

end

def stringify (j : Json) : String := String.ofList (write j)

end Writing

section Reading

variable {α : Type}

def isBlank (c : Char) : Bool := c = ' ' || c.toNat = 9 || c.toNat = 10 || c.toNat = 13

def skip (cs : List Char) : List Char := cs.dropWhile isBlank

def hexValue (c : Char) : Option ℕ :=
  if c.isDigit then some (c.toNat - 48)
  else if 'a' ≤ c ∧ c ≤ 'f' then some (c.toNat - 87)
  else if 'A' ≤ c ∧ c ≤ 'F' then some (c.toNat - 55)
  else none

def hexUnit (a b c d : Char) : Option UInt16 := do
  let a ← hexValue a
  let b ← hexValue b
  let c ← hexValue c
  let d ← hexValue d
  return UInt16.ofNat (((a * 16 + b) * 16 + c) * 16 + d)

def unescape (c : Char) : Option Char :=
  if c = '"' ∨ c = '\\' ∨ c = '/' then some c
  else if c = 'b' then some (Char.ofNat 8)
  else if c = 't' then some (Char.ofNat 9)
  else if c = 'n' then some (Char.ofNat 10)
  else if c = 'f' then some (Char.ofNat 12)
  else if c = 'r' then some (Char.ofNat 13)
  else none

def prepend (units : List UInt16) (read : Option (List UInt16 × List Char)) : Option (List UInt16 × List Char) :=
  read.map fun r => (units ++ r.1, r.2)

/-- What follows an opening quote, up to the closing one. -/
def readUnits : List Char → Option (List UInt16 × List Char)
  | [] => none
  | c :: cs =>
    if c = '"' then some ([], cs)
    else if c = '\\' then
      match cs with
      | [] => none
      | e :: cs =>
        if e = 'u' then
          match cs with
          | x :: y :: z :: w :: cs => (hexUnit x y z w).bind fun unit => prepend [unit] (readUnits cs)
          | _ => none
        else (unescape e).bind fun c => prepend (Utf16.units c) (readUnits cs)
    else if c.toNat < 0x20 then none
    else prepend (Utf16.units c) (readUnits cs)

def readString (cs : List Char) : Option (String × List Char) :=
  (readUnits cs).map fun r => (String.ofList (Utf16.chars r.1), r.2)

def readWhole (cs : List Char) : Option (ℕ × List Char) :=
  match cs with
  | [] => none
  | c :: rest =>
    if c = '0' then some (0, rest)
    else if c.isDigit then some (Nat.ofDigitChars 10 (cs.takeWhile Char.isDigit) 0, cs.dropWhile Char.isDigit)
    else none

def digitValue (c : Char) : Fin 10 := Fin.ofNat 10 (c.toNat - 48)

def readFraction (cs : List Char) : Option (List (Fin 10) × List Char) :=
  match cs with
  | [] => some ([], [])
  | c :: rest =>
    if c = '.' then
      if rest.takeWhile Char.isDigit = [] then none
      else some ((rest.takeWhile Char.isDigit).map digitValue, rest.dropWhile Char.isDigit)
    else some ([], cs)

def readPower (cs : List Char) : Option (ℕ × List Char) :=
  if cs.takeWhile Char.isDigit = [] then none
  else some (Nat.ofDigitChars 10 (cs.takeWhile Char.isDigit) 0, cs.dropWhile Char.isDigit)

def readExponent (cs : List Char) : Option (ℤ × List Char) :=
  match cs with
  | [] => some (0, [])
  | c :: rest =>
    if c = 'e' ∨ c = 'E' then
      match rest with
      | [] => none
      | s :: rest' =>
        if s = '-' then (readPower rest').map fun (n, rest) => (-(n : ℤ), rest)
        else if s = '+' then (readPower rest').map fun (n, rest) => ((n : ℤ), rest)
        else (readPower rest).map fun (n, rest) => ((n : ℤ), rest)
    else some (0, cs)

def readMagnitude (negative : Bool) (cs : List Char) : Option (Json × List Char) := do
  let (whole, cs) ← readWhole cs
  let (fraction, cs) ← readFraction cs
  let (exponent, rest) ← readExponent cs
  return (.number ⟨negative, whole, fraction, exponent⟩, rest)

def readNumber (cs : List Char) : Option (Json × List Char) :=
  match cs with
  | [] => none
  | c :: rest => if c = '-' then readMagnitude true rest else readMagnitude false cs

def readSequence (close : Char) (read : List Char → Option (α × List Char)) : ℕ → List Char → Option (List α × List Char)
  | 0, _ => none
  | n + 1, cs => do
    let (a, cs) ← read cs
    match skip cs with
    | [] => none
    | c :: rest =>
      if c = ',' then (readSequence close read n rest).map fun (as, rest) => (a :: as, rest)
      else if c = close then some ([a], rest)
      else none

def readBracketed (close : Char) (read : List Char → Option (α × List Char)) (cs : List Char) :
    Option (List α × List Char) :=
  match skip cs with
  | [] => none
  | c :: rest => if c = close then some ([], rest) else readSequence close read cs.length (c :: rest)

def readField (read : List Char → Option (Json × List Char)) (cs : List Char) : Option ((String × Json) × List Char) :=
  match skip cs with
  | [] => none
  | c :: cs =>
    if c = '"' then do
      let (name, cs) ← readString cs
      match skip cs with
      | [] => none
      | c :: cs => if c = ':' then (read cs).map fun (value, rest) => ((name, value), rest) else none
    else none

def readLiteral (cs : List Char) : Option (Json × List Char) :=
  if "null".toList.isPrefixOf cs then some (.null, cs.drop 4)
  else if "true".toList.isPrefixOf cs then some (.bool true, cs.drop 4)
  else if "false".toList.isPrefixOf cs then some (.bool false, cs.drop 5)
  else none

/-- A value that is nested no deeper than the given number. -/
def read : ℕ → List Char → Option (Json × List Char)
  | 0, _ => none
  | depth + 1, cs =>
    match skip cs with
    | [] => none
    | c :: rest =>
      if c = '"' then (readString rest).map fun (s, rest) => (.string s, rest)
      else if c = '[' then (readBracketed ']' (read depth) rest).map fun (items, rest) => (.array items, rest)
      else if c = '{' then (readBracketed '}' (readField (read depth)) rest).map fun (fields, rest) => (.object fields, rest)
      else (readLiteral (c :: rest)).orElse fun _ => readNumber (c :: rest)

def parse (s : String) : Option Json :=
  match read s.toList.length s.toList with
  | some (j, rest) => if skip rest = [] then some j else none
  | none => none

end Reading

section Access

/-- The array index that a name is. -/
def index? (name : String) : Option ℕ := name.toNat?.filter fun i => toString i = name ∧ i < 2 ^ 32 - 1

def isIndex (name : String) : Bool := (index? name).isSome

/-- The field of an object, of which the last of a name counts, or the item of an array, or the unit of a string. -/
def member? : Json → String → Option Json
  | .object fields, name => fields.reverse.lookup name
  | .array items, name => (index? name).bind fun i => items[i]?
  | .string s, name =>
    (index? name).bind fun i => (Utf16.ofChars s.toList)[i]?.map fun u => .string (String.singleton (Utf16.single u))
  | _, _ => none

/-- Array indices come first. -/
def ordered (names : List String) : List String :=
  (names.filter isIndex).mergeSort (fun a b => (index? a).getD 0 ≤ (index? b).getD 0) ++ names.filter (!isIndex ·)

/-- `Object.keys`, which throws on null. -/
def keys : Json → Option (List String)
  | .null => none
  | .object fields => some (ordered (fields.map Prod.fst).eraseDups)
  | .array items => some ((List.range items.length).map toString)
  | .string s => some ((List.range (Utf16.ofChars s.toList).length).map toString)
  | _ => some []

def values (j : Json) : List Json := (j.keys.getD []).filterMap j.member?

/-- Numbers up to half of the least double count as zero. -/
def isZero (n : Numeral) : Bool :=
  let mantissa := Nat.ofDigits 10 (n.fraction.map Fin.val).reverse + n.whole * 10 ^ n.fraction.length
  let exponent := n.exponent - n.fraction.length
  if 0 ≤ exponent then mantissa = 0 else mantissa * 2 ^ 1075 ≤ 10 ^ exponent.natAbs

def isTruthy : Json → Bool
  | .null => false
  | .bool b => b
  | .number n => !isZero n
  | .string s => s ≠ ""
  | .array _ => true
  | .object _ => true

/-- `??` -/
def present : Option Json → Option Json
  | some .null => none
  | j => j

lemma ordered_single (name : String) : ordered [name] = [name] := by
  rw [ordered]
  cases h : isIndex name <;> simp [h]

lemma keys_single (name : String) (j : Json) : (object [(name, j)]).keys = some [name] := by
  have hdups : ([(name, j)].map Prod.fst).eraseDups = [name] := by simp [List.eraseDups_cons]
  rw [keys, hdups, ordered_single]

lemma member_single (name : String) (j : Json) : (object [(name, j)]).member? name = some j := by
  simp [member?]

lemma values_single (name : String) (j : Json) : (object [(name, j)]).values = [j] := by
  rw [values, keys_single, Option.getD_some, List.filterMap_cons, member_single]
  rfl

end Access

section Records

def ofNat (n : ℕ) : Json := .number { whole := n }

/-- An object literal: a field whose value is undefined is not written. -/
def record (fields : List (String × Option Json)) : Json :=
  .object (fields.filterMap fun f => f.2.map (f.1, ·))

variable {fields fields' : List (String × Option Json)} {name : String} {value value' : Option Json}

lemma ofNat_injective : Function.Injective ofNat := by
  rintro n m h
  injection h with h
  injection h

@[simp] lemma record_nil : record [] = .object [] := rfl

@[simp] lemma record_none : record ((name, none) :: fields) = record fields := rfl

lemma record_some (v : Json) : record ((name, some v) :: fields) =
    .object ((name, v) :: fields.filterMap fun f => f.2.map (f.1, ·)) := rfl

lemma not_mem_record {v : Json} (hn : name ∉ fields.map Prod.fst) :
    (name, v) ∉ fields.filterMap fun f => f.2.map (f.1, ·) := by
  intro hmem
  obtain ⟨f, hf, hv⟩ := List.mem_filterMap.mp hmem
  obtain ⟨w, -, hw⟩ := Option.map_eq_some_iff.mp hv
  exact hn (List.mem_map.mpr ⟨f, hf, (Prod.mk.inj hw).1⟩)

lemma record_cons (h : record ((name, value) :: fields) = record ((name, value') :: fields'))
    (hn : name ∉ fields.map Prod.fst) (hn' : name ∉ fields'.map Prod.fst) :
    value = value' ∧ record fields = record fields' := by
  cases value with
  | none =>
    cases value' with
    | none => exact ⟨rfl, h⟩
    | some v =>
      rw [record_none, record_some, record, object.injEq] at h
      exact absurd (h ▸ List.mem_cons_self) (not_mem_record hn)
  | some v =>
    cases value' with
    | none =>
      rw [record_none, record_some, record, object.injEq] at h
      exact absurd (h ▸ List.mem_cons_self) (not_mem_record hn')
    | some v' =>
      rw [record_some, record_some, object.injEq] at h
      obtain ⟨hv, h⟩ := List.cons.inj h
      exact ⟨congrArg some (Prod.mk.inj hv).2, by rw [record, h, record]⟩

/-- Of distinct names, what is written determines every value and which are undefined. -/
lemma record_inj (h : record fields = record fields') (hn : fields.map Prod.fst = fields'.map Prod.fst)
    (hd : (fields.map Prod.fst).Nodup) : fields = fields' := by
  induction fields generalizing fields' with
  | nil => exact (List.map_eq_nil_iff.mp hn.symm).symm
  | cons f fields ih =>
    cases fields' with
    | nil => contradiction
    | cons f' fields' =>
      obtain ⟨name, value⟩ := f
      obtain ⟨name', value'⟩ := f'
      simp only [List.map_cons, List.cons.injEq] at hn
      obtain ⟨rfl, hn⟩ := hn
      obtain ⟨hnot, hd⟩ := List.nodup_cons.mp hd
      obtain ⟨rfl, hrest⟩ := record_cons h hnot (hn ▸ hnot)
      rw [ih hrest hn hd]

lemma member_object_cons (f : String × Json) (fs : List (String × Json)) (name : String) :
    (object (f :: fs)).member? name = ((object fs).member? name).or (if name = f.1 then some f.2 else none) := by
  have hlast : List.lookup name [f] = if name = f.1 then some f.2 else none := by
    by_cases h : name = f.1
    · rw [List.lookup_cons, beq_iff_eq.mpr h, if_pos h]
    · rw [List.lookup_cons, beq_eq_false_iff_ne.mpr h, if_neg h, List.lookup_nil]
  rw [member?, member?, List.reverse_cons, List.lookup_append, hlast]

lemma member_eq_none {fs : List (String × Json)} (h : ∀ f ∈ fs, f.1 ≠ name) : (object fs).member? name = none := by
  induction fs with
  | nil => rfl
  | cons f fs ih =>
    rw [member_object_cons, ih fun g hg => h g (List.mem_cons_of_mem f hg),
      if_neg fun heq => h f List.mem_cons_self heq.symm]
    rfl

lemma member_record (hd : (fields.map Prod.fst).Nodup) (hmem : (name, value) ∈ fields) :
    (record fields).member? name = value := by
  have habsent {fields : List (String × Option Json)} (hn : name ∉ fields.map Prod.fst) :
      (record fields).member? name = none := by
    refine member_eq_none ?_
    rintro ⟨n, v⟩ hf rfl
    exact not_mem_record hn hf
  induction fields with
  | nil => contradiction
  | cons f fields ih =>
    obtain ⟨n, v⟩ := f
    obtain ⟨hnot, hrest⟩ := List.nodup_cons.mp hd
    rcases List.mem_cons.mp hmem with heq | hin
    · obtain ⟨rfl, rfl⟩ := Prod.mk.inj heq
      cases value with
      | none =>
        change (record fields).member? name = none
        exact habsent hnot
      | some v =>
        rw [record_some, member_object_cons, if_pos rfl]
        change ((record fields).member? name).or _ = _
        rw [habsent hnot]
        rfl
    · have hne : name ≠ n := by
        rintro rfl
        exact hnot (List.mem_map.mpr ⟨_, hin, rfl⟩)
      cases v with
      | none => exact ih hrest hin
      | some v =>
        rw [record_some, member_object_cons, if_neg hne, Option.or_none]
        exact ih hrest hin

end Records

end Json

end ChameleonVault.Encoding
