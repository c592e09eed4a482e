import Mathlib.Algebra.GroupWithZero.Nat
import Mathlib.Data.List.Basic

/-! Tokens of GoogleSQL: words, quoted identifiers, query parameters, comments. Raw, triple-quoted and
bytes literals are left out. -/

namespace ChameleonVault.Sql

section Characters

def backtick : Char := Char.ofNat 0x60

def backslash : Char := Char.ofNat 0x5c

def singleQuote : Char := Char.ofNat 0x27

def doubleQuote : Char := Char.ofNat 0x22

def isWordStart (c : Char) : Bool :=
  ('a' ≤ c && c ≤ 'z') || ('A' ≤ c && c ≤ 'Z') || c == '_'

def isWordPart (c : Char) : Bool :=
  isWordStart c || ('0' ≤ c && c ≤ '9')

def symbols : List Char := "=,.();*+-/<>!%&|^~[]:?".toList

def digitOf (base : ℕ) (c : Char) : Option ℕ :=
  (if '0' ≤ c ∧ c ≤ '9' then some (c.toNat - 0x30)
    else if 'a' ≤ c ∧ c ≤ 'f' then some (c.toNat - 0x57)
    else if 'A' ≤ c ∧ c ≤ 'F' then some (c.toNat - 0x37)
    else none).filter (· < base)

def escapes : List (Char × Char) :=
  [('a', Char.ofNat 7), ('b', Char.ofNat 8), ('t', Char.ofNat 9), ('n', Char.ofNat 10), ('v', Char.ofNat 11),
    ('f', Char.ofNat 12), ('r', Char.ofNat 13), ('?', '?'), (backslash, backslash), (singleQuote, singleQuote),
    (doubleQuote, doubleQuote), (backtick, backtick)]

end Characters

section Tokens

inductive Token where
  | keyword (name : String)
  | identifier (name : String)
  | quoted (name : String)
  | parameter (name : String)
  | literal (text : String)
  | number (digits : String)
  | symbol (c : Char)
  deriving DecidableEq

def reservedKeywords : List String :=
  ["ALL", "AND", "ANY", "ARRAY", "AS", "ASC", "ASSERT_ROWS_MODIFIED", "AT", "BETWEEN", "BY", "CASE", "CAST",
    "COLLATE", "CONTAINS", "CREATE", "CROSS", "CUBE", "CURRENT", "DEFAULT", "DEFINE", "DESC", "DISTINCT", "ELSE",
    "END", "ENUM", "ESCAPE", "EXCEPT", "EXCLUDE", "EXISTS", "EXTRACT", "FALSE", "FETCH", "FOLLOWING", "FOR", "FROM",
    "FULL", "GROUP", "GROUPING", "GROUPS", "HASH", "HAVING", "IF", "IGNORE", "IN", "INNER", "INTERSECT", "INTERVAL",
    "INTO", "IS", "JOIN", "LATERAL", "LEFT", "LIKE", "LIMIT", "LOOKUP", "MERGE", "NATURAL", "NEW", "NO", "NOT",
    "NULL", "NULLS", "OF", "ON", "OR", "ORDER", "OUTER", "OVER", "PARTITION", "PRECEDING", "PROTO", "QUALIFY",
    "RANGE", "RECURSIVE", "RESPECT", "RIGHT", "ROLLUP", "ROWS", "SELECT", "SET", "SOME", "STRUCT", "TABLESAMPLE",
    "THEN", "TO", "TREAT", "TRUE", "UNBOUNDED", "UNION", "UNNEST", "USING", "WHEN", "WHERE", "WINDOW", "WITH",
    "WITHIN"]

def isReserved (name : String) : Bool := decide (name.toUpper ∈ reservedKeywords)

def nameToken (name : String) : Token :=
  if isReserved name then .keyword name.toUpper else .identifier name

def wordToken (word : List Char) : Token :=
  match word with
  | c :: _ => if isWordStart c then nameToken (String.ofList word) else .number (String.ofList word)
  | [] => .number ""

end Tokens

section Lexer

inductive Quote where
  | back
  | single
  | double
  deriving DecidableEq

def Quote.char : Quote → Char
  | .back => backtick
  | .single => singleQuote
  | .double => doubleQuote

/-- What the characters read so far leave open; `read` holds those of the open token, the latest first. -/
inductive Mode where
  | between
  | word (read : List Char)
  | parameter (read : List Char)
  | dash
  | slash
  | line
  | block (starred : Bool)
  | quoted (quote : Quote) (read : List Char)
  | escape (quote : Quote) (read : List Char)
  | code (quote : Quote) (read : List Char) (base left value : ℕ)
  deriving DecidableEq

def openers : List (Char × Mode) :=
  [('@', .parameter []), ('#', .line), ('-', .dash), ('/', .slash), (backtick, .quoted .back []),
    (singleQuote, .quoted .single []), (doubleQuote, .quoted .double [])]

def start (c : Char) : Option (List Token × Mode) :=
  if c.isWhitespace then some ([], .between)
  else if isWordPart c then some ([], .word [c])
  else match openers.lookup c with
    | some mode => some ([], mode)
    | none => if c ∈ symbols then some ([.symbol c], .between) else none

/-- The token that a character outside it, or the end of the text, completes. -/
def Mode.finish : Mode → Option (List Token)
  | .between | .line => some []
  | .word read => some [wordToken read.reverse]
  | .parameter read => if read = [] then none else some [.parameter (String.ofList read.reverse)]
  | .dash => some [.symbol '-']
  | .slash => some [.symbol '/']
  | .block _ | .quoted _ _ | .escape _ _ | .code _ _ _ _ _ => none

def restart (mode : Mode) (c : Char) : Option (List Token × Mode) :=
  mode.finish.bind fun tokens => (start c).map fun (more, next) => (tokens ++ more, next)

def close (quote : Quote) (read : List Char) : Option (List Token × Mode) :=
  if quote = .back then
    if read = [] then none else some ([.quoted (String.ofList read.reverse)], .between)
  else some ([.literal (String.ofList read.reverse)], .between)

def readQuoted (quote : Quote) (read : List Char) (c : Char) : Option (List Token × Mode) :=
  if c = quote.char then close quote read
  else if c = backslash then some ([], .escape quote read)
  else if quote ≠ .back ∧ (c = '\n' ∨ c = '\r') then none
  else some ([], .quoted quote (c :: read))

def readEscape (quote : Quote) (read : List Char) (c : Char) : Option (List Token × Mode) :=
  match escapes.lookup c with
  | some escaped => some ([], .quoted quote (escaped :: read))
  | none =>
    if c = 'x' ∨ c = 'X' then some ([], .code quote read 16 2 0)
    else if c = 'u' then some ([], .code quote read 16 4 0)
    else if c = 'U' then some ([], .code quote read 16 8 0)
    else (digitOf 8 c).map fun digit => ([], .code quote read 8 2 digit)

def readCode (quote : Quote) (read : List Char) (base left value : ℕ) (c : Char) :
    Option (List Token × Mode) :=
  (digitOf base c).bind fun digit =>
    if 1 < left then some ([], .code quote read base (left - 1) (base * value + digit))
    else if (base * value + digit).isValidChar then
      some ([], .quoted quote (Char.ofNat (base * value + digit) :: read))
    else none

def step : Mode → Char → Option (List Token × Mode)
  | .between, c => start c
  | .word read, c => if isWordPart c then some ([], .word (c :: read)) else restart (.word read) c
  | .parameter read, c =>
    if isWordPart c ∧ (read ≠ [] ∨ isWordStart c) then some ([], .parameter (c :: read))
    else restart (.parameter read) c
  | .dash, c => if c = '-' then some ([], .line) else restart .dash c
  | .slash, c => if c = '*' then some ([], .block false) else restart .slash c
  | .line, c => if c = '\n' ∨ c = '\r' then some ([], .between) else some ([], .line)
  | .block starred, c => if starred ∧ c = '/' then some ([], .between) else some ([], .block (c = '*'))
  | .quoted quote read, c => readQuoted quote read c
  | .escape quote read, c => readEscape quote read c
  | .code quote read base left value, c => readCode quote read base left value c

def run : Mode → List Char → Option (List Token × Mode)
  | mode, [] => some ([], mode)
  | mode, c :: cs => (step mode c).bind fun (tokens, next) =>
    (run next cs).map fun (more, last) => (tokens ++ more, last)

def lexFrom (mode : Mode) (cs : List Char) : Option (List Token) :=
  (run mode cs).bind fun (tokens, last) => last.finish.map (tokens ++ ·)

def lex (text : String) : Option (List Token) := lexFrom .between text.toList

end Lexer

section Runs

variable {mode next last : Mode} {c : Char} {xs ys cs word : List Char} {tokens more : List Token}

lemma run_cons (hc : step mode c = some (tokens, next)) (hy : run next ys = some (more, last)) :
    run mode (c :: ys) = some (tokens ++ more, last) := by
  simp [run, hc, hy]

lemma run_append : run mode (xs ++ ys) = (run mode xs).bind fun (tokens, next) =>
    (run next ys).map fun (more, last) => (tokens ++ more, last) := by
  induction xs generalizing mode with
  | nil => simp [run]
  | cons c xs ih =>
    cases hs : step mode c with
    | none => simp [run, hs]
    | some result =>
      simp only [List.cons_append, run, hs, Option.bind_some, ih, Option.map_bind, Option.bind_map]
      congr 1
      funext ⟨more, middle⟩
      simp [Option.map_map, Function.comp_def]

lemma run_trans (hx : run mode xs = some (tokens, next)) (hy : run next ys = some (more, last)) :
    run mode (xs ++ ys) = some (tokens ++ more, last) := by
  simp [run_append, hx, hy]

lemma lexFrom_nil : lexFrom mode [] = mode.finish := by
  simp [lexFrom, run]

lemma lexFrom_append (h : run mode xs = some (tokens, next)) :
    lexFrom mode (xs ++ ys) = (lexFrom next ys).map (tokens ++ ·) := by
  simp only [lexFrom, run_append, h, Option.bind_some, Option.bind_map, Option.map_bind]
  congr 1
  funext ⟨more, last⟩
  simp [Option.map_map, Function.comp_def]

lemma lexFrom_of_run (h : run mode xs = some (tokens, next)) : lexFrom mode xs = next.finish.map (tokens ++ ·) := by
  simp [lexFrom, h]

lemma lexFrom_append_eq_some (h : lexFrom mode (xs ++ ys) = some tokens) : ∃ before next after,
    run mode xs = some (before, next) ∧ lexFrom next ys = some after ∧ tokens = before ++ after := by
  cases hx : run mode xs with
  | none => simp [lexFrom, run_append, hx] at h
  | some result =>
    obtain ⟨before, next⟩ := result
    rw [lexFrom_append hx] at h
    obtain ⟨after, hy, rfl⟩ := Option.map_eq_some_iff.mp h
    exact ⟨before, next, after, rfl, hy, rfl⟩

lemma lexFrom_cons_eq_some (h : lexFrom mode (c :: cs) = some tokens) : ∃ first next rest,
    step mode c = some (first, next) ∧ lexFrom next cs = some rest ∧ tokens = first ++ rest := by
  rw [← List.singleton_append] at h
  obtain ⟨first, next, rest, hc, hrest, rfl⟩ := lexFrom_append_eq_some h
  obtain ⟨⟨first', next'⟩, hs, hnil⟩ := Option.bind_eq_some_iff.mp hc
  obtain ⟨rfl, rfl⟩ := Prod.mk.inj (Option.some.inj hnil)
  exact ⟨first', next', rest, hs, hrest, by rw [List.append_nil]⟩

lemma run_word {read : List Char} (h : ∀ c ∈ word, isWordPart c = true) :
    run (.word read) word = some ([], .word (word.reverse ++ read)) := by
  induction word generalizing read with
  | nil => rfl
  | cons c word ih =>
    have hstep : step (.word read) c = some ([], .word (c :: read)) := if_pos (h c List.mem_cons_self)
    have htail := run_cons hstep (ih fun d hd => h d (List.mem_cons_of_mem c hd))
    simpa using htail

lemma run_quoted {read : List Char} (h : ∀ c ∈ cs, c ≠ backtick ∧ c ≠ backslash) :
    run (.quoted .back read) cs = some ([], .quoted .back (cs.reverse ++ read)) := by
  induction cs generalizing read with
  | nil => rfl
  | cons c cs ih =>
    obtain ⟨hquote, hescape⟩ := h c List.mem_cons_self
    have hstep : step (.quoted .back read) c = some ([], .quoted .back (c :: read)) := by
      simp [step, readQuoted, Quote.char, hquote, hescape]
    have htail := run_cons hstep (ih fun d hd => h d (List.mem_cons_of_mem c hd))
    simpa using htail

def isName : List Char → Bool
  | [] => false
  | c :: cs => isWordStart c && cs.all isWordPart

lemma isWordPart_of_start (h : isWordStart c = true) : isWordPart c = true := by
  rw [isWordPart, h, Bool.true_or]

lemma not_isWhitespace_of_isWordPart (h : isWordPart c = true) : c.isWhitespace = false := by
  by_contra hspace
  simp only [Bool.not_eq_false, Char.isWhitespace, Bool.or_eq_true, decide_eq_true_eq] at hspace
  rcases hspace with ((rfl | rfl) | rfl) | rfl <;> revert h <;> decide

lemma isName_iff :
    isName word = true ↔ ∃ c cs, word = c :: cs ∧ isWordStart c = true ∧ ∀ d ∈ cs, isWordPart d = true := by
  cases word <;> simp [isName]

lemma isWordPart_of_isName (h : isName word = true) : ∀ c ∈ word, isWordPart c = true := by
  obtain ⟨c, cs, rfl, hc, hcs⟩ := isName_iff.mp h
  exact List.forall_mem_cons.mpr ⟨isWordPart_of_start hc, hcs⟩

lemma run_name (h : isName word = true) (hy : run .between ys = some (tokens, last)) :
    run .between (word ++ ' ' :: ys) = some (nameToken (String.ofList word) :: tokens, last) := by
  obtain ⟨c, cs, rfl, hc, hcs⟩ := isName_iff.mp h
  have hpart := isWordPart_of_start hc
  have hfirst : step .between c = some ([], .word [c]) := by
    simp [step, start, not_isWhitespace_of_isWordPart hpart, hpart]
  have hlast : step (.word (cs.reverse ++ [c])) ' ' = some ([nameToken (String.ofList (c :: cs))], .between) := by
    have hword : wordToken (cs.reverse ++ [c]).reverse = nameToken (String.ofList (c :: cs)) := by
      simp [wordToken, hc]
    rw [← hword]
    rfl
  exact run_cons hfirst (run_trans (run_word hcs) (run_cons hlast hy))

lemma run_parameter (h : isName word = true) :
    run (.parameter []) word = some ([], .parameter word.reverse) := by
  obtain ⟨c, cs, rfl, hc, hcs⟩ := isName_iff.mp h
  have hparts (read : List Char) (hne : read ≠ []) :
      run (.parameter read) cs = some ([], .parameter (cs.reverse ++ read)) := by
    clear h
    induction cs generalizing read with
    | nil => rfl
    | cons d cs ih =>
      obtain ⟨hd, hcs⟩ := List.forall_mem_cons.mp hcs
      have hstep : step (.parameter read) d = some ([], .parameter (d :: read)) := if_pos ⟨hd, .inl hne⟩
      have htail := run_cons hstep (ih hcs (d :: read) nofun)
      simpa using htail
  have hstep : step (.parameter []) c = some ([], .parameter [c]) := if_pos ⟨isWordPart_of_start hc, .inr hc⟩
  have htail := run_cons hstep (hparts [c] nofun)
  simpa using htail

end Runs

section Extents

/-- How many characters a token adds to a dotted path. -/
def Token.extent : Token → ℕ
  | .identifier name | .quoted name => name.length
  | .symbol _ => 1
  | .keyword _ | .parameter _ | .literal _ | .number _ => 0

def Mode.extent : Mode → ℕ
  | .word read | .quoted _ read | .escape _ read | .code _ read _ _ _ => read.length
  | .dash | .slash => 1
  | .between | .parameter _ | .line | .block _ => 0

def extent (tokens : List Token) : ℕ := (tokens.map Token.extent).sum

variable {mode next : Mode} {quote : Quote} {c : Char} {cs read : List Char} {tokens more : List Token}

@[simp] lemma extent_nil : extent [] = 0 := rfl

@[simp] lemma extent_cons {token : Token} : extent (token :: tokens) = token.extent + extent tokens := rfl

@[simp] lemma extent_append : extent (tokens ++ more) = extent tokens + extent more := by
  simp [extent]

lemma extent_wordToken : (wordToken cs).extent ≤ cs.length := by
  simp only [wordToken, nameToken]
  split
  · split
    · split
      · simp [Token.extent]
      · exact Nat.le_of_eq String.length_ofList
    · simp [Token.extent]
  · simp [Token.extent]

lemma extent_finish (h : mode.finish = some tokens) : extent tokens ≤ mode.extent := by
  cases mode with
  | word read =>
    obtain rfl := Option.some.inj h
    have hword : (wordToken read.reverse).extent ≤ read.reverse.length := extent_wordToken
    simpa [Mode.extent] using hword
  | parameter read =>
    simp only [Mode.finish, Option.ite_none_left_eq_some, Option.some.injEq] at h
    obtain ⟨-, rfl⟩ := h
    simp [Token.extent]
  | between | line | dash | slash =>
    obtain rfl := Option.some.inj h
    simp [Token.extent, Mode.extent]
  | block starred | quoted quote read | escape quote read | code quote read base left value => cases h

lemma extent_opener (h : openers.lookup c = some mode) : mode.extent ≤ 1 := by
  have hopeners : ∀ opener ∈ openers, opener.2.extent ≤ 1 := by decide
  obtain ⟨before, after, heq, -⟩ := List.lookup_eq_some_iff.mp h
  exact hopeners (c, mode) (by simp [heq])

lemma extent_start (h : start c = some (tokens, next)) : extent tokens + next.extent ≤ 1 := by
  rw [start] at h
  split at h
  · cases h
    simp [Mode.extent]
  · split at h
    · cases h
      simp [Mode.extent]
    · split at h
      · rename_i hopener
        cases h
        simpa using extent_opener hopener
      · split at h <;> cases h
        simp [Token.extent, Mode.extent]

lemma extent_restart (h : restart mode c = some (tokens, next)) :
    extent tokens + next.extent ≤ mode.extent + 1 := by
  obtain ⟨finished, hf, h⟩ := Option.bind_eq_some_iff.mp h
  obtain ⟨⟨started, next'⟩, hs, h⟩ := Option.map_eq_some_iff.mp h
  obtain ⟨rfl, rfl⟩ := Prod.mk.inj h
  have hfinish := extent_finish hf
  have hstart := extent_start hs
  rw [extent_append]
  omega

lemma extent_close (h : close quote read = some (tokens, next)) :
    next = .between ∧ extent tokens ≤ read.length := by
  rw [close] at h
  split_ifs at h <;> cases h <;> simp [Token.extent]

lemma extent_readQuoted (h : readQuoted quote read c = some (tokens, next)) :
    extent tokens + next.extent ≤ read.length + 1 := by
  rw [readQuoted] at h
  split_ifs at h
  · obtain ⟨rfl, hclose⟩ := extent_close h
    exact Nat.le_succ_of_le hclose
  · cases h
    simp [Mode.extent]
  · cases h
    simp [Mode.extent]

/-- Within an escape nothing is completed but the character it stands for. -/
def Decodes (quote : Quote) (read : List Char) (tokens : List Token) (next : Mode) : Prop :=
  tokens = [] ∧ ((∃ d, next = .quoted quote (d :: read)) ∨ ∃ base left value, next = .code quote read base left value)

lemma decodes_readEscape (h : readEscape quote read c = some (tokens, next)) : Decodes quote read tokens next := by
  rw [readEscape] at h
  split at h
  · rename_i escaped _
    cases h
    exact ⟨rfl, .inl ⟨escaped, rfl⟩⟩
  · split_ifs at h
    · cases h
      exact ⟨rfl, .inr ⟨16, 2, 0, rfl⟩⟩
    · cases h
      exact ⟨rfl, .inr ⟨16, 4, 0, rfl⟩⟩
    · cases h
      exact ⟨rfl, .inr ⟨16, 8, 0, rfl⟩⟩
    · obtain ⟨digit, -, h⟩ := Option.map_eq_some_iff.mp h
      cases h
      exact ⟨rfl, .inr ⟨8, 2, digit, rfl⟩⟩

lemma decodes_readCode {base left value : ℕ} (h : readCode quote read base left value c = some (tokens, next)) :
    Decodes quote read tokens next := by
  obtain ⟨digit, -, h⟩ := Option.bind_eq_some_iff.mp h
  split_ifs at h
  · cases h
    exact ⟨rfl, .inr ⟨base, left - 1, base * value + digit, rfl⟩⟩
  · cases h
    exact ⟨rfl, .inl ⟨Char.ofNat (base * value + digit), rfl⟩⟩

lemma Decodes.extent_le (h : Decodes quote read tokens next) : extent tokens + next.extent ≤ read.length + 1 := by
  obtain ⟨rfl, ⟨d, rfl⟩ | ⟨base, left, value, rfl⟩⟩ := h
  · simp [Mode.extent]
  · simp [Mode.extent]

lemma extent_step (h : step mode c = some (tokens, next)) : extent tokens + next.extent ≤ mode.extent + 1 := by
  cases mode with
  | between => simpa [Mode.extent] using extent_start h
  | word read | parameter read | dash | slash =>
    simp only [step] at h
    split_ifs at h
    · cases h
      simp [Mode.extent]
    · exact extent_restart h
  | line | block starred =>
    simp only [step] at h
    split_ifs at h <;> cases h <;> simp [Mode.extent]
  | quoted quote read => exact extent_readQuoted h
  | escape quote read => exact (decodes_readEscape h).extent_le
  | code quote read base left value => exact (decodes_readCode h).extent_le

lemma extent_run (h : run mode cs = some (tokens, next)) :
    extent tokens + next.extent ≤ mode.extent + cs.length := by
  induction cs generalizing mode tokens with
  | nil =>
    cases h
    simp
  | cons c cs ih =>
    obtain ⟨⟨first, middle⟩, hc, h⟩ := Option.bind_eq_some_iff.mp h
    obtain ⟨⟨rest, last⟩, hrest, h⟩ := Option.map_eq_some_iff.mp h
    obtain ⟨rfl, rfl⟩ := Prod.mk.inj h
    have hstep := extent_step hc
    have htail := ih hrest
    rw [extent_append, List.length_cons]
    omega

end Extents

section Inert

variable {mode next : Mode} {quote : Quote} {c : Char} {cs written read : List Char} {tokens : List Token}

/-- The text neither closes nor opens anything that reaches over several words. -/
def Inert (cs : List Char) : Prop :=
  ∀ c ∈ cs, c ∉ [backtick, singleQuote, doubleQuote, '/', '\n', '\r']

instance : Decidable (Inert cs) := List.decidableBAll _ cs

lemma Inert.quote_notMem (h : Inert cs) : quote.char ∉ cs := by
  intro hm
  have hc := h _ hm
  cases quote <;> simp [Quote.char] at hc

lemma Inert.append {ds : List Char} (hc : Inert cs) (hd : Inert ds) : Inert (cs ++ ds) :=
  List.forall_mem_append.mpr ⟨hc, hd⟩

lemma Inert.intercalate {texts : List (List Char)} (hc : Inert cs) (h : ∀ text ∈ texts, Inert text) :
    Inert (cs.intercalate texts) := by
  induction texts with
  | nil => exact fun c hm => absurd hm List.not_mem_nil
  | cons text texts ih =>
    obtain ⟨htext, htexts⟩ := List.forall_mem_cons.mp h
    cases texts with
    | nil => simpa using htext
    | cons following texts =>
      rw [List.intercalate_cons_cons]
      exact (htext.append hc).append (ih htexts)

lemma inert_of_isName (h : isName cs = true) : Inert cs := by
  intro c hc hm
  have hpart := isWordPart_of_isName h c hc
  have hnone : [backtick, singleQuote, doubleQuote, '/', '\n', '\r'].all fun d => !isWordPart d := by decide
  have hc := List.all_eq_true.mp hnone c hm
  rw [hpart] at hc
  cases hc

def Mode.closer : Mode → Option Quote
  | .quoted quote _ | .escape quote _ | .code quote _ _ _ _ => some quote
  | _ => none

lemma closer_readQuoted (hc : c ≠ quote.char) (h : readQuoted quote read c = some (tokens, next)) :
    next.closer = some quote := by
  rw [readQuoted, if_neg hc] at h
  split_ifs at h <;> cases h <;> rfl

lemma Decodes.closer_eq (h : Decodes quote read tokens next) : next.closer = some quote := by
  obtain ⟨-, ⟨d, rfl⟩ | ⟨base, left, value, rfl⟩⟩ := h <;> rfl

lemma closer_step (hq : mode.closer = some quote) (hc : c ≠ quote.char)
    (h : step mode c = some (tokens, next)) : next.closer = some quote := by
  cases mode with
  | quoted quote' read =>
    obtain rfl := Option.some.inj hq
    exact closer_readQuoted hc h
  | escape quote' read =>
    obtain rfl := Option.some.inj hq
    exact (decodes_readEscape h).closer_eq
  | code quote' read base left value =>
    obtain rfl := Option.some.inj hq
    exact (decodes_readCode h).closer_eq
  | between | word read | parameter read | dash | slash | line | block starred => cases hq

lemma lexFrom_open (hq : mode.closer = some quote) (hcs : quote.char ∉ cs) : lexFrom mode cs ≠ some tokens := by
  intro h
  induction cs generalizing mode tokens with
  | nil =>
    rw [lexFrom_nil] at h
    cases mode <;> cases hq <;> cases h
  | cons c cs ih =>
    rw [List.mem_cons, not_or] at hcs
    obtain ⟨first, next, rest, hc, hrest, -⟩ := lexFrom_cons_eq_some h
    exact ih (closer_step hq (Ne.symm hcs.1) hc) hcs.2 hrest

lemma lexFrom_block {starred : Bool} (hcs : '/' ∉ cs) : lexFrom (.block starred) cs ≠ some tokens := by
  intro h
  induction cs generalizing starred tokens with
  | nil => cases h
  | cons c cs ih =>
    rw [List.mem_cons, not_or] at hcs
    obtain ⟨first, next, rest, hc, hrest, -⟩ := lexFrom_cons_eq_some h
    simp only [step, Ne.symm hcs.1, and_false, if_false, Option.some.injEq, Prod.mk.injEq] at hc
    obtain ⟨-, rfl⟩ := hc
    exact ih hcs.2 hrest

lemma lexFrom_line (hn : '\n' ∉ cs) (hr : '\r' ∉ cs) : lexFrom .line cs = some [] := by
  induction cs with
  | nil => rfl
  | cons c cs ih =>
    rw [List.mem_cons, not_or] at hn hr
    have hstep : run .line [c] = some ([], .line) := by
      simp [run, step, Ne.symm hn.1, Ne.symm hr.1]
    rw [← List.singleton_append, lexFrom_append hstep, ih hn.2 hr.2]
    rfl

lemma start_backtick : start backtick = some ([], .quoted .back []) := by decide

lemma lexFrom_reopened (hcs : Inert cs) (hs : step mode backtick = restart mode backtick) :
    lexFrom mode (backtick :: cs) ≠ some tokens := by
  intro h
  obtain ⟨first, next, rest, hc, hrest, -⟩ := lexFrom_cons_eq_some h
  rw [hs, restart, start_backtick] at hc
  obtain ⟨finished, -, hc⟩ := Option.bind_eq_some_iff.mp hc
  obtain ⟨-, rfl⟩ := Prod.mk.inj (Option.some.inj hc)
  exact lexFrom_open rfl hcs.quote_notMem hrest

lemma Inert.control_notMem (h : Inert cs) (hc : c ∈ ['/', '\n', '\r']) : c ∉ backtick :: cs := by
  rw [List.mem_cons, not_or]
  refine ⟨?_, fun hm => h c hm (by simp_all)⟩
  rintro rfl
  revert hc
  decide

lemma lexFrom_backtick (hcs : Inert cs) (h : lexFrom mode (backtick :: cs) = some tokens) :
    ∃ before after, tokens = before ++ after ∧ (after = [] ∨ lexFrom .between cs = some after) ∧
      extent before ≤ mode.extent := by
  cases mode with
  | between | word read | parameter read | dash | slash => exact absurd h (lexFrom_reopened hcs rfl)
  | line =>
    rw [lexFrom_line (hcs.control_notMem (by simp)) (hcs.control_notMem (by simp))] at h
    exact ⟨[], [], (Option.some.inj h).symm, .inl rfl, Nat.zero_le _⟩
  | block starred => exact absurd h (lexFrom_block (hcs.control_notMem (by simp)))
  | quoted quote read =>
    obtain ⟨first, next, rest, hc, hrest, rfl⟩ := lexFrom_cons_eq_some h
    by_cases hq : backtick = quote.char
    · rw [step, readQuoted, if_pos hq] at hc
      obtain ⟨rfl, hextent⟩ := extent_close hc
      exact ⟨first, rest, rfl, .inr hrest, hextent⟩
    · exact absurd hrest (lexFrom_open (closer_readQuoted hq hc) hcs.quote_notMem)
  | escape quote read =>
    obtain ⟨first, next, rest, hc, hrest, rfl⟩ := lexFrom_cons_eq_some h
    have hdecodes : Decodes quote read first next := decodes_readEscape (c := backtick) hc
    exact absurd hrest (lexFrom_open hdecodes.closer_eq hcs.quote_notMem)
  | code quote read base left value =>
    obtain ⟨first, next, rest, hc, hrest, rfl⟩ := lexFrom_cons_eq_some h
    have hdecodes : Decodes quote read first next := decodes_readCode (c := backtick) hc
    exact absurd hrest (lexFrom_open hdecodes.closer_eq hcs.quote_notMem)

/-- Whatever is written before a backtick and an inert rest adds no more to the rest's tokens than it is long. -/
lemma lexFrom_written (hcs : Inert cs) (h : lexFrom mode (written ++ backtick :: cs) = some tokens) :
    ∃ before after, tokens = before ++ after ∧ (after = [] ∨ lexFrom .between cs = some after) ∧
      extent before ≤ mode.extent + written.length := by
  obtain ⟨first, next, rest, hw, hrest, rfl⟩ := lexFrom_append_eq_some h
  obtain ⟨before, after, rfl, hafter, hbefore⟩ := lexFrom_backtick hcs hrest
  have hrun := extent_run hw
  refine ⟨first ++ before, after, (List.append_assoc _ _ _).symm, hafter, ?_⟩
  rw [extent_append]
  omega

end Inert

end ChameleonVault.Sql
