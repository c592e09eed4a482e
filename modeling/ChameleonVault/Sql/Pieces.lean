import ChameleonVault.Sql.Lexer

/-! Texts put together from fixed parts and from values written into them. Such a text reads as it
was meant exactly when each of its values does. -/

namespace ChameleonVault.Sql

section Contents

variable {mode next : Mode} {quote : Quote} {c : Char} {cs read value rest tail : List Char} {tokens first : List Token}
  {enc : Char → List Char}

/-- The quote whose end the mode waits for, and what has been read of its contents. -/
def Mode.opened : Mode → Option (Quote × List Char)
  | .quoted quote read | .escape quote read | .code quote read _ _ _ => some (quote, read)
  | _ => none

def contents : Quote → List Char → Token
  | .back, value => .quoted (String.ofList value)
  | _, value => .literal (String.ofList value)

lemma contents_inj {value' : List Char} (h : contents quote value = contents quote value') : value = value' := by
  cases quote with
  | back => exact String.ofList_injective (Token.quoted.inj h)
  | single | double => exact String.ofList_injective (Token.literal.inj h)

lemma close_eq_some_iff : close quote read = some (tokens, next) ↔
    (quote = .back → read ≠ []) ∧ tokens = [contents quote read.reverse] ∧ next = .between := by
  cases quote with
  | back =>
    by_cases hread : read = []
    · simp [close, hread]
    · simp [close, hread, contents, eq_comm]
  | single | double => simp [close, contents, eq_comm]

/-- As long as the quote is not met it stays open, and at most one character is added to its contents. -/
lemma opened_step (hm : mode.opened = some (quote, read)) (hc : c ≠ quote.char) (h : step mode c = some (first, next)) :
    first = [] ∧ ∃ read', next.opened = some (quote, read') ∧ (read' = read ∨ ∃ d, read' = d :: read) := by
  have decoded (h : Decodes quote read first next) :
      first = [] ∧ ∃ read', next.opened = some (quote, read') ∧ (read' = read ∨ ∃ d, read' = d :: read) := by
    obtain ⟨rfl, ⟨d, rfl⟩ | ⟨base, left, value, rfl⟩⟩ := h
    · exact ⟨rfl, d :: read, rfl, .inr ⟨d, rfl⟩⟩
    · exact ⟨rfl, read, rfl, .inl rfl⟩
  cases mode with
  | quoted quote' read' =>
    obtain ⟨rfl, rfl⟩ := Prod.mk.inj (Option.some.inj hm)
    simp only [step, readQuoted, hc, if_false] at h
    split_ifs at h
    · cases h
      exact ⟨rfl, read', rfl, .inl rfl⟩
    · cases h
      exact ⟨rfl, c :: read', rfl, .inr ⟨c, rfl⟩⟩
  | escape quote' read' =>
    obtain ⟨rfl, rfl⟩ := Prod.mk.inj (Option.some.inj hm)
    exact decoded (decodes_readEscape h)
  | code quote' read' base left value =>
    obtain ⟨rfl, rfl⟩ := Prod.mk.inj (Option.some.inj hm)
    exact decoded (decodes_readCode h)
  | between | word read | parameter read | dash | slash | line | block starred => cases hm

lemma digitOf_quote {base : ℕ} : digitOf base quote.char = none := by
  cases quote <;> simp [digitOf, Quote.char, backtick, singleQuote, doubleQuote]

/-- A quote ends what is open, unless it is escaped and belongs to it. -/
lemma quote_step (hm : mode.opened = some (quote, read)) (h : step mode quote.char = some (first, next)) :
    first = [contents quote read.reverse] ∧ next = .between ∨ first = [] ∧ next = .quoted quote (quote.char :: read) := by
  cases mode with
  | quoted quote' read' =>
    obtain ⟨rfl, rfl⟩ := Prod.mk.inj (Option.some.inj hm)
    simp only [step, readQuoted, if_true] at h
    exact .inl (close_eq_some_iff.mp h).2
  | escape quote' read' =>
    obtain ⟨rfl, rfl⟩ := Prod.mk.inj (Option.some.inj hm)
    have hlookup : escapes.lookup quote'.char = some quote'.char := by cases quote' <;> decide
    simp only [step, readEscape, hlookup, Option.some.injEq, Prod.mk.injEq] at h
    exact .inr ⟨h.1.symm, h.2.symm⟩
  | code quote' read' base left value =>
    obtain ⟨rfl, rfl⟩ := Prod.mk.inj (Option.some.inj hm)
    simp [step, readCode, digitOf_quote] at h
  | between | word read | parameter read | dash | slash | line | block starred => cases hm

/-- What comes next from an open quote is its contents, with what has been read of them in front. -/
lemma opened_contents (hm : mode.opened = some (quote, read)) (h : lexFrom mode cs = some tokens) :
    ∃ value more, tokens = contents quote value :: more ∧ read.reverse <+: value := by
  induction cs generalizing mode read tokens with
  | nil =>
    rw [lexFrom_nil] at h
    cases mode <;> cases hm <;> cases h
  | cons c cs ih =>
    obtain ⟨first, next, rest, hc, hrest, rfl⟩ := lexFrom_cons_eq_some h
    by_cases hquote : c = quote.char
    · subst hquote
      rcases quote_step hm hc with ⟨rfl, -⟩ | ⟨rfl, rfl⟩
      · exact ⟨_, rest, rfl, List.prefix_rfl⟩
      · obtain ⟨value, more, rfl, hvalue⟩ := ih rfl hrest
        rw [List.reverse_cons] at hvalue
        exact ⟨value, more, rfl, (List.prefix_append _ _).trans hvalue⟩
    · obtain ⟨rfl, read', hnext, hread⟩ := opened_step hm hquote hc
      obtain ⟨value, more, rfl, hvalue⟩ := ih hnext hrest
      refine ⟨value, more, rfl, ?_⟩
      rcases hread with rfl | ⟨d, rfl⟩
      · exact hvalue
      · rw [List.reverse_cons] at hvalue
        exact (List.prefix_append _ _).trans hvalue

/-- A way to write contents: each character as itself, and a quote perhaps with more after it. -/
def Writes (quote : Quote) (enc : Char → List Char) : Prop :=
  ∀ c, ∃ more, enc c = c :: more ∧ (c ≠ quote.char → more = [])

/-- The contents are no longer than what was written, unless a quote got into them that was not written there. -/
lemma contents_bound (henc : Writes quote enc) (hm : mode.opened = some (quote, read))
    (h : lexFrom mode (value.flatMap enc ++ quote.char :: cs) = some tokens) :
    ∃ found more, tokens = contents quote found :: more ∧ (found.length ≤ read.length + value.length ∨
      ∃ before after, found = before ++ quote.char :: after ∧
        ∀ head tail, value = head ++ quote.char :: tail → before.length ≤ read.length + head.length) := by
  have met {cs : List Char} {tokens : List Token} {mode : Mode} {read : List Char}
      (hm : mode.opened = some (quote, read)) (h : lexFrom mode (quote.char :: cs) = some tokens) :
      ∃ found more, tokens = contents quote found :: more ∧
        (found.length ≤ read.length ∨ ∃ after, found = read.reverse ++ quote.char :: after) := by
    obtain ⟨first, next, rest, hc, hrest, rfl⟩ := lexFrom_cons_eq_some h
    rcases quote_step hm hc with ⟨rfl, -⟩ | ⟨rfl, rfl⟩
    · exact ⟨_, rest, rfl, .inl (Nat.le_of_eq List.length_reverse)⟩
    · obtain ⟨found, more, rfl, after, rfl⟩ := @opened_contents (.quoted quote (quote.char :: read)) _ _ _ _ rfl hrest
      exact ⟨_, more, rfl, .inr ⟨after, by simp⟩⟩
  induction value generalizing mode read tokens with
  | nil =>
    obtain ⟨found, more, rfl, hfound⟩ := met hm h
    refine ⟨found, more, rfl, hfound.imp (fun hle => hle) fun ⟨after, hafter⟩ => ⟨read.reverse, after, hafter, ?_⟩⟩
    intro head tail hsplit
    exact absurd hsplit (by simp)
  | cons c value ih =>
    obtain ⟨encoded, hc, hmore⟩ := henc c
    rw [List.flatMap_cons, hc, List.append_assoc, List.cons_append] at h
    by_cases hquote : c = quote.char
    · subst hquote
      obtain ⟨found, more, rfl, hfound⟩ := met hm h
      refine ⟨found, more, rfl, hfound.imp (fun hle => Nat.le_add_right_of_le hle) fun ⟨after, hafter⟩ => ?_⟩
      refine ⟨read.reverse, after, hafter, fun head tail _ => ?_⟩
      rw [List.length_reverse]
      exact Nat.le_add_right _ _
    · rw [hmore hquote, List.nil_append] at h
      obtain ⟨first, next, rest, hstep, hrest, rfl⟩ := lexFrom_cons_eq_some h
      obtain ⟨rfl, read', hnext, hread⟩ := opened_step hm hquote hstep
      have hlength : read'.length ≤ read.length + 1 := by
        rcases hread with rfl | ⟨d, rfl⟩
        · exact Nat.le_succ _
        · exact Nat.le_refl _
      obtain ⟨found, more, rfl, hle | ⟨before, after, hfound, hbefore⟩⟩ := ih hnext hrest
      · refine ⟨found, more, rfl, .inl ?_⟩
        rw [List.length_cons]
        omega
      · refine ⟨found, more, rfl, .inr ⟨before, after, hfound, fun head tail hsplit => ?_⟩⟩
        cases head with
        | nil => exact absurd (List.cons.inj hsplit).1 hquote
        | cons d head =>
          have hle := hbefore head tail (List.cons.inj hsplit).2
          rw [List.length_cons]
          omega

def isPlainChar (quote : Quote) (c : Char) : Bool :=
  c ≠ quote.char && c ≠ backslash && (quote = .back || (c ≠ '\n' && c ≠ '\r'))

/-- Written between these quotes the value stands for itself. -/
def Plain (quote : Quote) (value : List Char) : Prop :=
  (quote = .back → value ≠ []) ∧ ∀ c ∈ value, isPlainChar quote c = true

instance : Decidable (Plain quote value) := @instDecidableAnd _ _ _ (List.decidableBAll _ value)

lemma isPlainChar_iff : isPlainChar quote c = true ↔
    c ≠ quote.char ∧ c ≠ backslash ∧ (quote = .back ∨ c ≠ '\n' ∧ c ≠ '\r') := by
  simp [isPlainChar, and_assoc]

lemma plain_step (hc : isPlainChar quote c = true) :
    step (.quoted quote read) c = some ([], .quoted quote (c :: read)) := by
  obtain ⟨hquote, hescape, hline⟩ := isPlainChar_iff.mp hc
  have hopen : ¬ (quote ≠ .back ∧ (c = '\n' ∨ c = '\r')) := by
    rintro ⟨hne, hend⟩
    obtain ⟨hn, hr⟩ := hline.resolve_left hne
    exact hend.elim hn hr
  simp only [step, readQuoted, hquote, hescape, hopen, if_false]

lemma run_plain (henc : Writes quote enc) (hvalue : ∀ c ∈ value, isPlainChar quote c = true) :
    run (.quoted quote read) (value.flatMap enc) = some ([], .quoted quote (value.reverse ++ read)) := by
  induction value generalizing read with
  | nil => rfl
  | cons c value ih =>
    obtain ⟨hc, hvalue⟩ := List.forall_mem_cons.mp hvalue
    obtain ⟨more, hmore, hnone⟩ := henc c
    have hstep : step (.quoted quote read) c = some ([], .quoted quote (c :: read)) := plain_step hc
    have htail := run_cons hstep (ih hvalue)
    rw [List.flatMap_cons, hmore, hnone (isPlainChar_iff.mp hc).1]
    simpa using htail

lemma exists_first (h : ¬ ∀ c ∈ value, isPlainChar quote c = true) : ∃ head c tail, value = head ++ c :: tail ∧
    (∀ d ∈ head, isPlainChar quote d = true) ∧ isPlainChar quote c = false := by
  induction value with
  | nil => exact absurd (fun c hm => absurd hm List.not_mem_nil) h
  | cons c value ih =>
    cases hc : isPlainChar quote c with
    | false => exact ⟨[], c, value, rfl, fun d hd => absurd hd List.not_mem_nil, hc⟩
    | true =>
      obtain ⟨head, special, tail, rfl, hhead, hspecial⟩ := ih fun hvalue => h (List.forall_mem_cons.mpr ⟨hc, hvalue⟩)
      exact ⟨c :: head, special, tail, rfl, List.forall_mem_cons.mpr ⟨hc, hhead⟩, hspecial⟩

lemma split_quote {head before after tail : List Char} (hhead : ∀ d ∈ head, isPlainChar quote d = true)
    (h : head ++ backslash :: tail = before ++ quote.char :: after) :
    ∃ head' tail', tail = head' ++ quote.char :: tail' ∧ before.length = head.length + 1 + head'.length := by
  have hne : backslash ≠ quote.char := by cases quote <;> decide
  rcases List.append_eq_append_iff.mp h with ⟨reached, rfl, hafter⟩ | ⟨reached, rfl, hafter⟩
  · cases reached with
    | nil => exact absurd (List.cons.inj hafter).1 hne
    | cons d reached =>
      obtain ⟨-, rfl⟩ := List.cons.inj hafter
      refine ⟨reached, after, rfl, ?_⟩
      rw [List.length_append, List.length_cons]
      omega
  · cases reached with
    | nil => exact absurd (List.cons.inj hafter).1.symm hne
    | cons d reached =>
      obtain ⟨rfl, -⟩ := List.cons.inj hafter
      have hplain := hhead quote.char (List.mem_append_right before List.mem_cons_self)
      exact absurd rfl (isPlainChar_iff.mp hplain).1

/-- If the contents that are read are what was meant, nothing in them was special. -/
lemma plain_of_contents (henc : Writes quote enc)
    (h : lexFrom (.quoted quote []) (value.flatMap enc ++ quote.char :: cs) = some (contents quote value :: tokens)) :
    ∀ c ∈ value, isPlainChar quote c = true := by
  by_contra hplain
  obtain ⟨head, c, tail, rfl, hhead, hc⟩ := exists_first hplain
  rw [List.flatMap_append, List.append_assoc, lexFrom_append (run_plain henc hhead), List.append_nil,
    Option.map_eq_some_iff] at h
  obtain ⟨rest, h, hrest⟩ := h
  rw [List.nil_append] at hrest
  subst hrest
  obtain ⟨more, hmore, hnone⟩ := henc c
  rw [List.flatMap_cons, hmore, List.append_assoc, List.cons_append] at h
  obtain ⟨first, next, rest, hstep, hrest, hfirst⟩ := lexFrom_cons_eq_some h
  by_cases hquote : c = quote.char
  · subst hquote
    rcases quote_step rfl hstep with ⟨rfl, -⟩ | ⟨rfl, rfl⟩
    · have hvalue := congrArg List.length (contents_inj (List.cons.inj hfirst).1)
      simp at hvalue
    · simp [step, readQuoted, close] at hstep
      split_ifs at hstep <;> simp at hstep
  · rw [hnone hquote, List.nil_append] at hrest
    by_cases hescape : c = backslash
    · subst hescape
      simp only [step, readQuoted, hquote, if_false, if_true, Option.some.injEq, Prod.mk.injEq] at hstep
      obtain ⟨rfl, rfl⟩ := hstep
      obtain ⟨found, more, hfound, hbound⟩ := contents_bound henc rfl hrest
      rw [List.nil_append, hfound] at hfirst
      obtain rfl := contents_inj (List.cons.inj hfirst).1
      rcases hbound with hle | ⟨before, after, hsplit, hbefore⟩
      · simp only [List.length_append, List.length_cons, List.length_reverse] at hle
        omega
      · obtain ⟨head', tail', rfl, hlength⟩ := split_quote hhead hsplit
        have hle := hbefore head' tail' rfl
        rw [List.length_reverse] at hle
        omega
    · have hline : quote ≠ .back ∧ (c = '\n' ∨ c = '\r') := by
        by_contra hother
        have hplain : isPlainChar quote c = true := by
          refine isPlainChar_iff.mpr ⟨hquote, hescape, ?_⟩
          by_cases hback : quote = .back
          · exact .inl hback
          · exact .inr (not_or.mp fun hend => hother ⟨hback, hend⟩)
        rw [hc] at hplain
        cases hplain
      simp only [step, readQuoted, hquote, hescape, if_false, if_pos hline] at hstep
      cases hstep

lemma lexFrom_contents_iff (henc : Writes quote enc) :
    lexFrom (.quoted quote []) (value.flatMap enc ++ quote.char :: cs) = some (contents quote value :: tokens) ↔
      Plain quote value ∧ lexFrom .between cs = some tokens := by
  have hread (hvalue : ∀ c ∈ value, isPlainChar quote c = true) :
      lexFrom (.quoted quote []) (value.flatMap enc ++ quote.char :: cs) =
        lexFrom (.quoted quote value.reverse) (quote.char :: cs) := by
    rw [lexFrom_append (run_plain henc hvalue), List.append_nil]
    simp
  have hclose (hne : quote = .back → value ≠ []) :
      step (.quoted quote value.reverse) quote.char = some ([contents quote value], .between) := by
    have hclosed : close quote value.reverse = some ([contents quote value], .between) :=
      close_eq_some_iff.mpr ⟨fun hback => by simpa using hne hback, by rw [List.reverse_reverse], rfl⟩
    simp only [step, readQuoted, if_true, hclosed]
  constructor
  · intro h
    have hvalue := plain_of_contents henc h
    rw [hread hvalue] at h
    obtain ⟨first, next, rest, hstep, hrest, hfirst⟩ := lexFrom_cons_eq_some h
    simp only [step, readQuoted, if_true] at hstep
    obtain ⟨hne, rfl, rfl⟩ := close_eq_some_iff.mp hstep
    obtain ⟨-, rfl⟩ := List.cons.inj hfirst
    exact ⟨⟨fun hback => by simpa using hne hback, hvalue⟩, hrest⟩
  · rintro ⟨⟨hne, hvalue⟩, hrest⟩
    have hrun : run (.quoted quote value.reverse) [quote.char] = some ([contents quote value], .between) := by
      simp [run, hclose hne]
    rw [hread hvalue, ← List.singleton_append, lexFrom_append hrun, hrest]
    rfl

end Contents

section Names

variable {mode next : Mode} {c : Char} {cs word : List Char} {tokens first : List Token} {name : String} {token : Token}

/-- A word that is being read has begun as one. -/
def Mode.WellRead : Mode → Prop
  | .word read => read ≠ [] ∧ ∀ c ∈ read, isWordPart c = true
  | _ => True

/-- An identifier among the tokens is a name, and no keyword. -/
def Token.Named (token : Token) : Prop :=
  ∀ name, token = .identifier name → isName name.toList = true ∧ isReserved name = false

lemma named_wordToken (hne : word ≠ []) (h : ∀ c ∈ word, isWordPart c = true) : (wordToken word).Named := by
  intro name he
  obtain ⟨c, word, rfl⟩ := List.exists_cons_of_ne_nil hne
  unfold wordToken nameToken at he
  simp only at he
  split_ifs at he with hstart hreserved
  · obtain rfl := Token.identifier.inj he
    refine ⟨?_, Bool.not_eq_true _ ▸ hreserved⟩
    rw [String.toList_ofList]
    exact isName_iff.mpr ⟨c, word, rfl, hstart, fun d hd => h d (List.mem_cons_of_mem c hd)⟩

lemma named_finish (hm : mode.WellRead) (h : mode.finish = some tokens) : ∀ token ∈ tokens, token.Named := by
  intro token ht
  cases mode with
  | word read =>
    obtain rfl := Option.some.inj h
    obtain rfl := List.mem_singleton.mp ht
    exact named_wordToken (by simpa using hm.1) fun c hc => hm.2 c (List.mem_reverse.mp hc)
  | parameter read =>
    simp only [Mode.finish, Option.ite_none_left_eq_some, Option.some.injEq] at h
    obtain ⟨-, rfl⟩ := h
    obtain rfl := List.mem_singleton.mp ht
    intro name he
    cases he
  | between | line | dash | slash =>
    obtain rfl := Option.some.inj h
    first
      | exact absurd ht List.not_mem_nil
      | obtain rfl := List.mem_singleton.mp ht
        intro name he
        cases he
  | block starred | quoted quote read | escape quote read | code quote read base left value => cases h

lemma named_start (h : start c = some (tokens, next)) : (∀ token ∈ tokens, token.Named) ∧ next.WellRead := by
  rw [start] at h
  split at h
  · cases h
    exact ⟨fun _ ht => absurd ht List.not_mem_nil, trivial⟩
  · split at h
    · rename_i hpart
      cases h
      exact ⟨fun _ ht => absurd ht List.not_mem_nil, List.cons_ne_nil _ _, by simpa using hpart⟩
    · split at h
      · rename_i mode hopener
        cases h
        have hopeners : ∀ opener ∈ openers, opener.2 = .line ∨ opener.2 = .dash ∨ opener.2 = .slash ∨
            opener.2 = .parameter [] ∨ opener.2.opened.isSome = true := by decide
        obtain ⟨before, after, heq, -⟩ := List.lookup_eq_some_iff.mp hopener
        refine ⟨fun _ ht => absurd ht List.not_mem_nil, ?_⟩
        have hm := hopeners (c, next) (by simp [heq])
        cases next with
        | word read => simp [Mode.opened] at hm
        | _ => trivial
      · split at h <;> cases h
        refine ⟨fun token ht => ?_, trivial⟩
        obtain rfl := List.mem_singleton.mp ht
        intro name he
        cases he

lemma named_restart (hm : mode.WellRead) (h : restart mode c = some (tokens, next)) :
    (∀ token ∈ tokens, token.Named) ∧ next.WellRead := by
  obtain ⟨finished, hfinish, h⟩ := Option.bind_eq_some_iff.mp h
  obtain ⟨⟨started, next'⟩, hstart, h⟩ := Option.map_eq_some_iff.mp h
  obtain ⟨rfl, rfl⟩ := Prod.mk.inj h
  obtain ⟨hstarted, hnext⟩ := named_start hstart
  exact ⟨List.forall_mem_append.mpr ⟨named_finish hm hfinish, hstarted⟩, hnext⟩

lemma named_step (hm : mode.WellRead) (h : step mode c = some (tokens, next)) :
    (∀ token ∈ tokens, token.Named) ∧ next.WellRead := by
  have silent {next' : Mode} (he : some ([], next') = some (tokens, next)) (hnext : next'.WellRead) :
      (∀ token ∈ tokens, token.Named) ∧ next.WellRead := by
    obtain ⟨rfl, rfl⟩ := Prod.mk.inj (Option.some.inj he)
    exact ⟨fun _ ht => absurd ht List.not_mem_nil, hnext⟩
  have decoded {quote : Quote} {read : List Char} (hd : Decodes quote read tokens next) :
      (∀ token ∈ tokens, token.Named) ∧ next.WellRead := by
    obtain ⟨rfl, ⟨d, rfl⟩ | ⟨base, left, value, rfl⟩⟩ := hd <;> exact ⟨fun _ ht => absurd ht List.not_mem_nil, trivial⟩
  cases mode with
  | between => exact named_start h
  | word read =>
    simp only [step] at h
    split at h
    · rename_i hpart
      exact silent h ⟨List.cons_ne_nil _ _, List.forall_mem_cons.mpr ⟨hpart, hm.2⟩⟩
    · exact named_restart hm h
  | parameter read | dash | slash =>
    simp only [step] at h
    split at h
    · exact silent h trivial
    · exact named_restart hm h
  | line | block starred =>
    simp only [step] at h
    split at h <;> exact silent h trivial
  | quoted quote read =>
    simp only [step, readQuoted] at h
    split_ifs at h
    · obtain ⟨-, rfl, rfl⟩ := close_eq_some_iff.mp h
      refine ⟨fun token ht => ?_, trivial⟩
      obtain rfl := List.mem_singleton.mp ht
      intro name he
      cases quote <;> cases he
    · exact silent h trivial
    · exact silent h trivial
  | escape quote read => exact decoded (decodes_readEscape h)
  | code quote read base left value => exact decoded (decodes_readCode h)

lemma named_lexFrom (hm : mode.WellRead) (h : lexFrom mode cs = some tokens) : ∀ token ∈ tokens, token.Named := by
  induction cs generalizing mode tokens with
  | nil =>
    rw [lexFrom_nil] at h
    exact named_finish hm h
  | cons c cs ih =>
    obtain ⟨first, next, rest, hc, hrest, rfl⟩ := lexFrom_cons_eq_some h
    obtain ⟨hfirst, hnext⟩ := named_step hm hc
    exact List.forall_mem_append.mpr ⟨hfirst, ih hnext hrest⟩

lemma isWordStart_of_toUpper (h : isWordStart c.toUpper = true) : isWordStart c = true := by
  unfold Char.toUpper at h
  split at h
  · rename_i hlower
    have hle : ('a' ≤ c && c ≤ 'z') = true := by simpa [Char.le_def] using hlower
    rw [isWordStart, hle, Bool.true_or, Bool.true_or]
  · exact h

lemma isName_of_isReserved (h : isReserved name = true) : isName name.toList = true := by
  have hkeywords : reservedKeywords.all fun keyword =>
      !keyword.toList.isEmpty && keyword.toList.all isWordStart := by decide +kernel
  have hword := List.all_eq_true.mp hkeywords _ (of_decide_eq_true h)
  simp only [Bool.and_eq_true, Bool.not_eq_true', List.isEmpty_eq_false_iff, List.all_eq_true] at hword
  obtain ⟨hne, hstart⟩ := hword
  rw [String.toUpper, String.toList_map] at hne hstart
  have hchars c (hc : c ∈ name.toList) : isWordStart c = true :=
    isWordStart_of_toUpper (hstart _ (List.mem_map_of_mem hc))
  obtain ⟨c, cs, hname⟩ := List.exists_cons_of_ne_nil fun hnil : name.toList = [] => hne (congrArg _ hnil)
  rw [hname] at hchars ⊢
  refine isName_iff.mpr ⟨c, cs, rfl, hchars c List.mem_cons_self, fun d hd => ?_⟩
  exact isWordPart_of_start (hchars d (List.mem_cons_of_mem c hd))

end Names

section Pieces

/-- A character that ends a name, and the tokens it is itself. -/
structure Separator where
  char : Char
  tokens : List Token
  start : start char = some (tokens, .between)
  notWord : isWordPart char = false

namespace Separator

def comma : Separator := ⟨',', [.symbol ','], by decide, by decide⟩
def closing : Separator := ⟨')', [.symbol ')'], by decide, by decide⟩
def space : Separator := ⟨' ', [], by decide, by decide⟩
def newline : Separator := ⟨'\n', [], by decide, by decide⟩

end Separator

/-- Text that leaves nothing open. -/
structure Fixed where
  text : String
  closed : (run .between text.toList).map Prod.snd = some .between

def Fixed.tokens (fixed : Fixed) : List Token := ((run .between fixed.text.toList).map Prod.fst).getD []

inductive Piece where
  | fixed (fixed : Fixed)
  | written (quote : Quote) (enc : Char → List Char) (writes : Writes quote enc) (value : String)
  | name (name : String) (separator : Separator)
  | column (name : String) (separator : Separator)

namespace Piece

def render : Piece → List Char
  | fixed f => f.text.toList
  | written quote enc _ value => quote.char :: value.toList.flatMap enc ++ [quote.char]
  | name word separator => word.toList ++ [separator.char]
  | column word separator => word.toList ++ [separator.char]

/-- What the piece is meant to be read as; the name of a column may be reserved where it follows a dot. -/
def tokens : Piece → List Token
  | fixed f => f.tokens
  | written quote _ _ value => [contents quote value.toList]
  | name word separator => .identifier word :: separator.tokens
  | column word separator => nameToken word :: separator.tokens

def Sound : Piece → Prop
  | fixed _ => True
  | written quote _ _ value => Plain quote value.toList
  | name word _ => isName word.toList = true ∧ isReserved word = false
  | column word _ => isName word.toList = true

end Piece

variable {cs tail word : List Char} {rest tokens : List Token} {piece : Piece} {pieces : List Piece}
  {separator : Separator} {name : String}

lemma Fixed.run (fixed : Fixed) : run .between fixed.text.toList = some (fixed.tokens, .between) := by
  obtain ⟨⟨tokens, mode⟩, hrun, rfl⟩ := Option.map_eq_some_iff.mp fixed.closed
  rw [Fixed.tokens, hrun]
  rfl

lemma map_append_eq_some_iff {o : Option (List Token)} {first rest : List Token} :
    o.map (first ++ ·) = some (first ++ rest) ↔ o = some rest := by
  simp [Option.map_eq_some_iff]

lemma run_separated (h : isName word = true) : run .between (word ++ [separator.char]) =
    some (nameToken (String.ofList word) :: separator.tokens, .between) := by
  obtain ⟨c, cs, rfl, hc, hcs⟩ := isName_iff.mp h
  have hpart := isWordPart_of_start hc
  have hfirst : step .between c = some ([], .word [c]) := by
    simp [step, start, not_isWhitespace_of_isWordPart hpart, hpart]
  have hword : wordToken (cs.reverse ++ [c]).reverse = nameToken (String.ofList (c :: cs)) := by
    simp [wordToken, hc]
  have hlast : run (.word (cs.reverse ++ [c])) [separator.char] =
      some (nameToken (String.ofList (c :: cs)) :: separator.tokens, .between) := by
    rw [← hword]
    simp [run, step, separator.notWord, restart, Mode.finish, separator.start]
  exact run_cons hfirst (run_trans (run_word hcs) hlast)

lemma isName_of_nameToken (h : (nameToken name).Named) : isName name.toList = true := by
  rw [nameToken] at h
  split at h
  · rename_i hreserved
    exact isName_of_isReserved hreserved
  · exact (h name rfl).1

/-- A piece is read as meant exactly when it is sound, and then what follows is read on its own. -/
lemma lexFrom_piece_iff : lexFrom .between (piece.render ++ cs) = some (piece.tokens ++ rest) ↔
    piece.Sound ∧ lexFrom .between cs = some rest := by
  cases piece with
  | fixed f =>
    rw [Piece.render, lexFrom_append f.run]
    refine map_append_eq_some_iff.trans ?_
    simp [Piece.Sound]
  | written quote enc writes value =>
    have hopen : run .between [quote.char] = some ([], .quoted quote []) := by
      cases quote <;> decide
    rw [Piece.render, Piece.tokens, List.cons_append, List.cons_append, ← List.singleton_append, lexFrom_append hopen,
      List.append_assoc]
    exact map_append_eq_some_iff.trans (lexFrom_contents_iff writes)
  | name word separator =>
    by_cases hname : isName word.toList = true
    · rw [Piece.render, lexFrom_append (run_separated hname), String.ofList_toList, Piece.tokens]
      cases hreserved : isReserved word with
      | true =>
        simp [nameToken, hreserved, Piece.Sound, Option.map_eq_some_iff]
      | false =>
        have htoken : nameToken word = .identifier word := by simp [nameToken, hreserved]
        rw [htoken]
        refine map_append_eq_some_iff.trans ?_
        simp [Piece.Sound, hname, hreserved]
    · refine iff_of_false (fun h => hname ?_) fun h => hname h.1.1
      exact (@named_lexFrom .between _ _ trivial h (.identifier word) (by simp [Piece.tokens]) word rfl).1
  | column word separator =>
    by_cases hname : isName word.toList = true
    · rw [Piece.render, lexFrom_append (run_separated hname), String.ofList_toList, Piece.tokens]
      refine map_append_eq_some_iff.trans ?_
      simp [Piece.Sound, hname]
    · refine iff_of_false (fun h => hname ?_) fun h => hname h.1
      exact isName_of_nameToken (@named_lexFrom .between _ _ trivial h (nameToken word) (by simp [Piece.tokens]))

lemma lexFrom_pieces_iff (htail : lexFrom .between tail = some tokens) :
    lexFrom .between (pieces.flatMap Piece.render ++ tail) = some (pieces.flatMap Piece.tokens ++ tokens) ↔
      ∀ piece ∈ pieces, piece.Sound := by
  induction pieces with
  | nil => simpa using htail
  | cons piece pieces ih =>
    rw [List.flatMap_cons, List.flatMap_cons, List.append_assoc, List.append_assoc, lexFrom_piece_iff, ih,
      List.forall_mem_cons]

end Pieces

end ChameleonVault.Sql
