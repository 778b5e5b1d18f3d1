import FirebirdSchema.Proofs.Characters
import FirebirdSchema.Text.Numeral

/-!
# A tokenizer for SQL

The lexical rules of standard SQL as an automaton that reads one character after
another: comments behind two dashes, identifiers between double quotes, strings
between single quotes, words, numbers and punctuation.  The tokenizer knows
nothing about schemas; it is the reader against which the scripts are measured.

The lemmas follow the pieces of which a text is put together.
`Reads follow cs tokens` states that the tokens of a text that begins with `cs`
are `tokens` and the tokens of the rest, whenever the rest lies in `follow`.
-/

namespace FirebirdSchema.Sql

/-- A token of SQL. -/
inductive Token
  /-- A comment, with the dashes that open it. -/
  | comment (text : String)
  | word (text : String)
  | number (digits : String)
  /-- A name between double quotes, without the quotes. -/
  | identifier (name : String)
  /-- A text between single quotes, without the quotes. -/
  | string (text : String)
  | symbol (c : Char)
  deriving DecidableEq

/-- What the tokenizer is reading.  The characters read so far stand in reverse
order. -/
inductive State
  /-- Nothing: the next character begins a token or is blank. -/
  | start
  /-- Something that a single dash may open. -/
  | dash
  | comment (read : List Char)
  | word (read : List Char)
  | number (read : List Char)
  | identifier (read : List Char)
  /-- An identifier, or the first half of a doubled quote in an identifier. -/
  | identifierQuote (read : List Char)
  | string (read : List Char)
  /-- A string, or the first half of a doubled quote in a string. -/
  | stringQuote (read : List Char)
  deriving DecidableEq

/-- The text of characters in reverse order. -/
def textOf (read : List Char) : String :=
  String.ofList read.reverse

/-- The punctuation of SQL. -/
def isPunctuation (c : Char) : Bool :=
  c ∈ ['(', ')', ',', ';', '.']

/-- Reads a character between tokens. -/
def begin (c : Char) : Option (List Token × State) :=
  if c.isWhitespace then some ([], .start)
  else if isPunctuation c then some ([.symbol c], .start)
  else if c = '-' then some ([], .dash)
  else if c = '"' then some ([], .identifier [])
  else if c = '\'' then some ([], .string [])
  else if c.isDigit then some ([], .number [c])
  else if c.isAlpha ∨ c = '_' then some ([], .word [c])
  else none

/-- Ends a token and reads the character behind it. -/
def beginAfter (token : Token) (c : Char) : Option (List Token × State) :=
  (begin c).map fun (tokens, state) => (token :: tokens, state)

/-- Reads a character; the result holds the tokens that end before or with
it. -/
def step : State → Char → Option (List Token × State)
  | .start, c => begin c
  | .dash, c => if c = '-' then some ([], .comment ['-', '-']) else none
  | .comment read, c =>
    if c = '\n' ∨ c = '\r' then beginAfter (.comment (textOf read)) c
    else some ([], .comment (c :: read))
  | .word read, c =>
    if c.isAlphanum ∨ c = '_' then some ([], .word (c :: read))
    else beginAfter (.word (textOf read)) c
  | .number read, c =>
    if c.isDigit then some ([], .number (c :: read))
    else beginAfter (.number (textOf read)) c
  | .identifier read, c =>
    if c = '"' then some ([], .identifierQuote read)
      else some ([], .identifier (c :: read))
  | .identifierQuote read, c =>
    if c = '"' then some ([], .identifier ('"' :: read))
    else beginAfter (.identifier (textOf read)) c
  | .string read, c =>
    if c = '\'' then some ([], .stringQuote read)
      else some ([], .string (c :: read))
  | .stringQuote read, c =>
    if c = '\'' then some ([], .string ('\'' :: read))
    else beginAfter (.string (textOf read)) c

/-- The tokens that end with the text.  Open quotes and single dashes are
refused. -/
def finish : State → Option (List Token)
  | .start => some []
  | .comment read => some [.comment (textOf read)]
  | .word read => some [.word (textOf read)]
  | .number read => some [.number (textOf read)]
  | .identifierQuote read => some [.identifier (textOf read)]
  | .stringQuote read => some [.string (textOf read)]
  | .dash | .identifier _ | .string _ => none

/-- The tokens of the rest of a text. -/
def tokensFrom : State → List Char → Option (List Token)
  | state, [] => finish state
  | state, c :: cs =>
    (step state c).bind fun (tokens, next) =>
      (tokensFrom next cs).map (tokens ++ ·)

/-- The tokens of a text, unless it breaks the lexical rules. -/
def tokens? (text : String) : Option (List Token) :=
  tokensFrom .start text.toList

/-! ## Runs over a piece of a text -/

/-- Reads a piece of a text. -/
def steps : State → List Char → Option (List Token × State)
  | state, [] => some ([], state)
  | state, c :: cs =>
    (step state c).bind fun (tokens, next) =>
      (steps next cs).map fun (more, last) => (tokens ++ more, last)

theorem tokensFrom_append {state last : State} {cs : List Char}
    {tokens : List Token} (h : steps state cs = some (tokens, last))
    (rest : List Char) :
    tokensFrom state (cs ++ rest) =
      (tokensFrom last rest).map (tokens ++ ·) := by
  induction cs generalizing state tokens with
  | nil =>
      obtain ⟨rfl, rfl⟩ := Prod.mk.inj (Option.some.inj h)
      simp
  | cons c cs ih =>
      simp only [steps, Option.bind_eq_some_iff, Option.map_eq_some_iff] at h
      obtain ⟨⟨first, next⟩, hstep, ⟨more, last'⟩, hsteps, heq⟩ := h
      obtain ⟨rfl, rfl⟩ := Prod.mk.inj heq
      have hrest := ih hsteps
      simp [tokensFrom, hstep, hrest, Function.comp_def]

/-- The token that a state holds, when whatever cannot continue the token ends
it. -/
def State.pending? : State → Option (List Token)
  | .start => some []
  | .word read => some [.word (textOf read)]
  | .number read => some [.number (textOf read)]
  | .identifierQuote read => some [.identifier (textOf read)]
  | .stringQuote read => some [.string (textOf read)]
  | .dash | .comment _ | .identifier _ | .string _ => none

/-- Blanks and punctuation end every pending token. -/
def IsDelimited (rest : List Char) : Prop :=
  ∀ c ∈ rest.head?, c.isWhitespace = true ∨ isPunctuation c = true

/-- Blanks and punctuation are no part of words and numbers, and no quotes. -/
theorem not_continues_of_delimits {c : Char}
    (h : c.isWhitespace = true ∨ isPunctuation c = true) :
    c.isAlphanum = false ∧ c.isDigit = false ∧ c ≠ '_' ∧ c ≠ '"' ∧
      c ≠ '\'' := by
  rcases h with h | h
  · simp only [Char.isWhitespace, Bool.or_eq_true, decide_eq_true_eq] at h
    rcases h with ((rfl | rfl) | rfl) | rfl <;> decide
  · simp only [isPunctuation, decide_eq_true_eq, List.mem_cons,
      List.not_mem_nil, or_false] at h
    rcases h with rfl | rfl | rfl | rfl | rfl <;> decide

theorem finish_eq_of_pending {state : State} {tokens : List Token}
    (h : state.pending? = some tokens) : finish state = some tokens := by
  cases state with
  | dash | comment read | identifier read | string read => cases h
  | start | word read | number read | identifierQuote read | stringQuote read =>
      exact h

theorem step_eq_of_pending {state : State} {tokens : List Token}
    (h : state.pending? = some tokens) {c : Char}
    (hc : c.isWhitespace = true ∨ isPunctuation c = true) :
    step state c = (begin c).map fun p => (tokens ++ p.1, p.2) := by
  obtain ⟨halphanum, hdigit, hunderscore, hquote, hapostrophe⟩ :=
    not_continues_of_delimits hc
  cases state with
  | dash | comment read | identifier read | string read => cases h
  | start | word read | number read | identifierQuote read | stringQuote read =>
      obtain rfl := Option.some.inj h
      simp [step, beginAfter, halphanum, hdigit, hunderscore, hquote,
        hapostrophe]

theorem tokensFrom_of_pending {state : State} {tokens : List Token}
    (h : state.pending? = some tokens) {rest : List Char}
    (hrest : IsDelimited rest) :
    tokensFrom state rest = (tokensFrom .start rest).map (tokens ++ ·) := by
  cases rest with
  | nil =>
      have hfinish := finish_eq_of_pending h
      have hstart : finish .start = some [] := rfl
      simp [tokensFrom, hfinish, hstart]
  | cons c cs =>
      have hstep := step_eq_of_pending h (hrest c rfl)
      have hstart : step .start c = begin c := rfl
      simp [tokensFrom, hstep, hstart, Option.map_bind, Option.bind_map,
        Function.comp_def]

/-! ## Pieces of a text -/

/-- Behind a piece, the tokens of the piece come before the tokens of the
rest. -/
def Reads (follow : List Char → Prop) (cs : List Char) (tokens : List Token) :
    Prop :=
  ∀ ⦃rest⦄, follow rest →
    tokensFrom .start (cs ++ rest) = (tokensFrom .start rest).map (tokens ++ ·)

/-- A piece that ends between two tokens, whatever follows. -/
theorem reads_of_steps {cs : List Char} {tokens : List Token}
    (h : steps .start cs = some (tokens, .start)) (follow : List Char → Prop) :
    Reads follow cs tokens := by
  intro rest _
  exact tokensFrom_append h rest

/-- The tokens of a piece, when a delimiter may stand behind it. -/
def pieceTokens? (cs : List Char) : Option (List Token) :=
  (steps .start cs).bind fun (tokens, last) => last.pending?.map (tokens ++ ·)

theorem reads_of_pieceTokens {cs : List Char} {tokens : List Token}
    (h : pieceTokens? cs = some tokens) : Reads IsDelimited cs tokens := by
  obtain ⟨⟨ended, last⟩, hsteps, hlast⟩ := Option.bind_eq_some_iff.mp h
  obtain ⟨pending, hpending, rfl⟩ := Option.map_eq_some_iff.mp hlast
  intro rest hrest
  rw [tokensFrom_append hsteps, tokensFrom_of_pending hpending hrest,
    Option.map_map]
  simp [Function.comp_def]

namespace Reads

variable {follow next : List Char → Prop} {cs ds : List Char}
  {tokens more : List Token}

theorem nil (follow : List Char → Prop) : Reads follow [] [] := by
  intro rest _
  simp

theorem append (h : Reads follow cs tokens) (hmore : Reads next ds more)
    (hnext : ∀ rest, next rest → follow (ds ++ rest)) :
    Reads next (cs ++ ds) (tokens ++ more) := by
  intro rest hrest
  rw [List.append_assoc, h (hnext rest hrest), hmore hrest, Option.map_map]
  simp [Function.comp_def]

theorem flatMap {α : Type} {code : α → List Char} {tokensOf : α → List Token}
    (h : ∀ a, Reads follow (code a) (tokensOf a))
    (hnext : ∀ a rest, follow (code a ++ rest)) (xs : List α) :
    Reads follow (xs.flatMap code) (xs.flatMap tokensOf) := by
  induction xs with
  | nil => exact nil _
  | cons x xs ih =>
      rw [List.flatMap_cons, List.flatMap_cons]
      exact (h x).append ih fun rest =>
        follow_flatMap_append hnext (fun _ => id) xs

theorem separated {α : Type} {code : α → List Char} {tokensOf : α → List Token}
    {separator : List Char} {separatorTokens : List Token}
    (h : ∀ a, Reads follow (code a) (tokensOf a))
    (hseparator : Reads (fun _ => True) separator separatorTokens)
    (hnext : ∀ rest, follow (separator ++ rest)) (xs : List α) :
    Reads follow (FirebirdSchema.separated separator code xs)
      (FirebirdSchema.separated separatorTokens tokensOf xs) := by
  cases xs with
  | nil => exact nil _
  | cons x xs =>
      have htails : Reads follow (xs.flatMap fun y => separator ++ code y)
          (xs.flatMap fun y => separatorTokens ++ tokensOf y) := by
        apply flatMap
        · intro y
          exact hseparator.append (h y) fun _ _ => trivial
        · intro y rest
          rw [List.append_assoc]
          exact hnext _
      apply (h x).append htails
      intro rest hrest
      apply follow_flatMap_append _ (fun _ => id) xs hrest
      intro y rest
      rw [List.append_assoc]
      exact hnext _

end Reads

/-! ## Quoted names and numerals -/

/-- A quote in a name leads through `identifierQuote` back into the
identifier. -/
theorem steps_double (read name : List Char) :
    steps (.identifier read) (Text.Quoted.double name ++ ['"']) =
      some ([], .identifierQuote (name.reverse ++ read)) := by
  induction name generalizing read with
  | nil => simp [Text.Quoted.double, steps, step]
  | cons c cs ih =>
      by_cases hc : c = '"'
      · have hstep := ih ('"' :: read)
        simp [Text.Quoted.double, steps, step, hc, hstep]
      · have hstep := ih (c :: read)
        simp [Text.Quoted.double, steps, step, hc, hstep]

/-- A quoted name is one token, whatever characters it holds. -/
theorem reads_quotedChars (name : String) :
    Reads IsDelimited (quotedChars name) [.identifier name] := by
  have hsteps : steps .start (quotedChars name) =
      some ([], .identifierQuote name.toList.reverse) := by
    have hname := steps_double [] name.toList
    have hquote : step .start '"' = some ([], .identifier []) := rfl
    simp [quotedChars, Text.Quoted.encode, steps, hquote, hname]
  have htext : textOf name.toList.reverse = name := by
    simp [textOf]
  apply reads_of_pieceTokens
  simp [pieceTokens?, hsteps, State.pending?, htext]

example : tokens? "\"A\"\"; --\"" = some [.identifier "A\"; --"] := rfl

theorem reads_quotedListChars (names : List String) :
    Reads IsDelimited (quotedListChars names)
      (separated [.symbol ','] (fun name => [.identifier name]) names) := by
  apply Reads.separated reads_quotedChars
  · exact reads_of_steps rfl _
  · intro rest c hc
    obtain rfl : ',' = c := Option.some.inj hc
    exact Or.inr rfl

theorem steps_number (read : List Char) {digits : List Char}
    (h : ∀ c ∈ digits, c.isDigit = true) :
    steps (.number read) digits =
      some ([], .number (digits.reverse ++ read)) := by
  induction digits generalizing read with
  | nil => rfl
  | cons d ds ih =>
      have hd : d.isDigit = true := h d List.mem_cons_self
      have hds := ih (d :: read) fun c hc => h c (List.mem_cons_of_mem d hc)
      simp [steps, step, hd, hds]

theorem begin_of_isDigit {c : Char} (h : c.isDigit = true) :
    begin c = some ([], .number [c]) := by
  have hblank : ¬(c.isWhitespace = true ∨ isPunctuation c = true) := by
    intro hc
    obtain ⟨-, hdigit, -⟩ := not_continues_of_delimits hc
    simp [h] at hdigit
  have hmarks : c ≠ '-' ∧ c ≠ '"' ∧ c ≠ '\'' := by
    refine ⟨?_, ?_, ?_⟩
    all_goals
      rintro rfl
      exact absurd h (by decide)
  simp only [not_or] at hblank
  simp [begin, hblank, hmarks, h]

theorem reads_toDigits (n : Nat) :
    Reads IsDelimited (Nat.toDigits 10 n) [.number (toString n)] := by
  have hdigits : ∀ c ∈ Nat.toDigits 10 n, c.isDigit = true :=
    fun c hc => Nat.isDigit_of_mem_toDigits (by decide) (by decide) hc
  have hsteps : steps .start (Nat.toDigits 10 n) =
      some ([], .number (Nat.toDigits 10 n).reverse) := by
    cases hn : Nat.toDigits 10 n with
    | nil => exact absurd hn Nat.toDigits_ne_nil
    | cons d ds =>
        rw [hn] at hdigits
        have hbegin : step .start d = some ([], .number [d]) :=
          begin_of_isDigit (hdigits d List.mem_cons_self)
        have hds := steps_number [d] fun c hc =>
          hdigits c (List.mem_cons_of_mem d hc)
        simp [steps, hbegin, hds]
  have htext : textOf (Nat.toDigits 10 n).reverse = toString n := by
    rw [textOf, List.reverse_reverse]
    rfl
  apply reads_of_pieceTokens
  simp [pieceTokens?, hsteps, State.pending?, htext]

end FirebirdSchema.Sql
