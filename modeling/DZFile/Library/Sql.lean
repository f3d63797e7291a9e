import Mathlib.Data.List.Basic
import Mathlib.Data.Nat.Digits.Defs

/-!
# A fragment of SQL

A lexer and a parser for `INSERT` and `DELETE` statements.  The lexer is an
automaton that reads one character at a time: words, numbers, comments, and
string literals, which run from a single quote to the next one that is not
doubled; every other character is a token of its own.  The parser accepts a
text that is one statement and nothing else.

The rules follow a text through the automaton.  The last group is about what
is put between two quotes: without a quote in it, it is read as it stands, and
with one the literal that is read is shorter.
-/

namespace DZFile.Sql

/-! ## Tokens -/

/-- The single quote. -/
def quote : Char := Char.ofNat 39

/-- The end of a line. -/
def newline : Char := Char.ofNat 10

/-- Words are lower case, since keywords and names ignore case. -/
inductive Token where
  | word (name : List Char)
  | integer (digits : List Char)
  | literal (value : List Char)
  | symbol (char : Char)
deriving DecidableEq

/-- What the lexer is in the middle of. -/
inductive Mode where
  | between
  | word (name : List Char)
  | integer (digits : List Char)
  | literal (value : List Char)
  /-- Behind a quote that ends the literal unless another one follows. -/
  | closing (value : List Char)
  | dash
  | lineComment
  | slash
  | blockComment
  /-- In a comment, behind a star. -/
  | star
deriving DecidableEq

/-- The lexer and the tokens it has completed. -/
structure Lexer where
  mode : Mode
  tokens : List Token
deriving DecidableEq

/-- A character of a word behind its first. -/
def isWordChar (char : Char) : Bool :=
  char.isAlphanum || char = '_'

/-- Read a character that starts something new. -/
def start (tokens : List Token) (char : Char) : Lexer :=
  if char.isWhitespace then ⟨.between, tokens⟩
  else if char = quote then ⟨.literal [], tokens⟩
  else if char.isDigit then ⟨.integer [char], tokens⟩
  else if isWordChar char then ⟨.word [char.toLower], tokens⟩
  else if char = '-' then ⟨.dash, tokens⟩
  else if char = '/' then ⟨.slash, tokens⟩
  else ⟨.between, tokens ++ [.symbol char]⟩

/-- The mode that goes on with a character, if there is one. -/
def Mode.continue? (char : Char) : Mode → Option Mode
  | .between => none
  | .word name =>
      if isWordChar char then some (.word (name ++ [char.toLower])) else none
  | .integer digits =>
      if char.isDigit then some (.integer (digits ++ [char])) else none
  | .literal value =>
      some
        (if char = quote then .closing value else .literal (value ++ [char]))
  | .closing value =>
      if char = quote then some (.literal (value ++ [quote])) else none
  | .dash => if char = '-' then some .lineComment else none
  | .lineComment =>
      some (if char = newline then .between else .lineComment)
  | .slash => if char = '*' then some .blockComment else none
  | .blockComment => some (if char = '*' then .star else .blockComment)
  | .star =>
      some
        (if char = '/' then .between
          else if char = '*' then .star
          else .blockComment)

/-- The token that is complete if the mode ends here. -/
def Mode.pending : Mode → List Token
  | .word name => [.word name]
  | .integer digits => [.integer digits]
  | .closing value => [.literal value]
  | .dash => [.symbol '-']
  | .slash => [.symbol '/']
  | _ => []

/-- Read one character. -/
def step (lexer : Lexer) (char : Char) : Lexer :=
  match lexer.mode.continue? char with
  | some mode => ⟨mode, lexer.tokens⟩
  | none => start (lexer.tokens ++ lexer.mode.pending) char

/-- The tokens at the end of the text; a literal must have been closed. -/
def finish (lexer : Lexer) : Option (List Token) :=
  match lexer.mode with
  | .literal _ => none
  | mode => some (lexer.tokens ++ mode.pending)

/-- Read a text. -/
def scan (lexer : Lexer) (text : List Char) : Lexer :=
  text.foldl step lexer

/-- The tokens of a text. -/
def lex (text : List Char) : Option (List Token) :=
  finish (scan ⟨.between, []⟩ text)

/-! ## Statements -/

/-- A value in a statement. -/
inductive Value where
  | text (value : List Char)
  | integer (value : Int)
deriving DecidableEq

/-- The statements of the fragment. -/
inductive Statement where
  | insert (table : List Char) (columns : List (List Char))
      (values : List Value)
  /-- With the condition that a column equals a value. -/
  | delete (table column : List Char) (value : Value)
deriving DecidableEq

/-- Take the given token. -/
def expect (token : Token) : List Token → Option (List Token)
  | [] => none
  | next :: rest => if next = token then some rest else none

/-- Take a name. -/
def name : List Token → Option (List Char × List Token)
  | .word name :: rest => some (name, rest)
  | _ => none

/-- Take a number or a literal. -/
def value : List Token → Option (Value × List Token)
  | .literal text :: rest => some (.text text, rest)
  | .integer digits :: rest =>
      some (.integer (Nat.ofDigitChars 10 digits 0), rest)
  | .symbol '-' :: .integer digits :: rest =>
      some (.integer (-Nat.ofDigitChars 10 digits 0), rest)
  | _ => none

/-- Take items with commas between them, up to a closing parenthesis. -/
def items {α : Type} (item : List Token → Option (α × List Token)) :
    Nat → List Token → Option (List α × List Token)
  | 0, _ => none
  | fuel + 1, tokens => do
      let (first, rest) ← item tokens
      match rest with
      | .symbol ')' :: rest => return ([first], rest)
      | .symbol ',' :: rest => do
          let (others, rest) ← items item fuel rest
          return (first :: others, rest)
      | _ => none

/-- A parenthesised list; every item takes a token. -/
def tuple {α : Type} (item : List Token → Option (α × List Token))
    (tokens : List Token) : Option (List α × List Token) := do
  let rest ← expect (.symbol '(') tokens
  items item rest.length rest

/-- `INSERT INTO table(columns) VALUES(values);` -/
def insertStatement (tokens : List Token) :
    Option (Statement × List Token) := do
  let rest ← expect (.word "insert".toList) tokens
  let rest ← expect (.word "into".toList) rest
  let (table, rest) ← name rest
  let (columns, rest) ← tuple name rest
  let rest ← expect (.word "values".toList) rest
  let (values, rest) ← tuple value rest
  let rest ← expect (.symbol ';') rest
  return (.insert table columns values, rest)

/-- `DELETE FROM table WHERE column = value;` -/
def deleteStatement (tokens : List Token) :
    Option (Statement × List Token) := do
  let rest ← expect (.word "delete".toList) tokens
  let rest ← expect (.word "from".toList) rest
  let (table, rest) ← name rest
  let rest ← expect (.word "where".toList) rest
  let (column, rest) ← name rest
  let rest ← expect (.symbol '=') rest
  let (value, rest) ← value rest
  let rest ← expect (.symbol ';') rest
  return (.delete table column value, rest)

/-- The statement a text consists of. -/
def parse (text : List Char) : Option Statement := do
  let tokens ← lex text
  let (statement, rest) ←
    (insertStatement tokens).orElse fun _ => deleteStatement tokens
  if rest = [] then return statement else none

/-! ## Through the automaton -/

theorem scan_append (lexer : Lexer) (before after : List Char) :
    scan lexer (before ++ after) = scan (scan lexer before) after :=
  List.foldl_append

theorem scan_cons (lexer : Lexer) (char : Char) (rest : List Char) :
    scan lexer (char :: rest) = scan (step lexer char) rest :=
  rfl

section Step

variable {char : Char} {value digits : List Char} {tokens : List Token}

theorem step_literal_of_ne (other : char ≠ quote) :
    step ⟨.literal value, tokens⟩ char =
      ⟨.literal (value ++ [char]), tokens⟩ := by
  simp [step, Mode.continue?, other]

theorem step_literal_quote :
    step ⟨.literal value, tokens⟩ quote = ⟨.closing value, tokens⟩ := by
  simp [step, Mode.continue?]

theorem step_closing_quote :
    step ⟨.closing value, tokens⟩ quote =
      ⟨.literal (value ++ [quote]), tokens⟩ := by
  simp [step, Mode.continue?]

theorem step_closing_of_ne (other : char ≠ quote) :
    step ⟨.closing value, tokens⟩ char =
      start (tokens ++ [.literal value]) char := by
  simp [step, Mode.continue?, Mode.pending, other]

theorem step_integer (digit : char.isDigit = true) :
    step ⟨.integer digits, tokens⟩ char =
      ⟨.integer (digits ++ [char]), tokens⟩ := by
  simp [step, Mode.continue?, digit]

end Step

/-- Within a literal everything but a quote is read as it stands. -/
theorem scan_literal
    {text : List Char} (free : quote ∉ text)
    (value : List Char) (tokens : List Token) :
    scan ⟨.literal value, tokens⟩ text = ⟨.literal (value ++ text), tokens⟩ := by
  induction text generalizing value with
  | nil => simp [scan]
  | cons char rest induction =>
      rw [List.mem_cons, not_or] at free
      rw [scan_cons, step_literal_of_ne (Ne.symm free.1), induction free.2,
        List.append_assoc]
      rfl

/-- Digits continue a number. -/
theorem scan_integer
    {more : List Char} (areDigits : ∀ char ∈ more, char.isDigit = true)
    (digits : List Char) (tokens : List Token) :
    scan ⟨.integer digits, tokens⟩ more =
      ⟨.integer (digits ++ more), tokens⟩ := by
  induction more generalizing digits with
  | nil => simp [scan]
  | cons char rest induction =>
      rcases List.forall_mem_cons.mp areDigits with ⟨digit, areDigits⟩
      rw [scan_cons, step_integer digit, induction areDigits,
        List.append_assoc]
      rfl

/-- A digit starts a number. -/
theorem start_digit
    (tokens : List Token) {char : Char} (digit : char.isDigit = true) :
    start tokens char = ⟨.integer [char], tokens⟩ := by
  have notSpace : char.isWhitespace = false := by
    by_contra space
    rw [Bool.not_eq_false] at space
    simp only [Char.isWhitespace, Bool.or_eq_true, decide_eq_true_eq] at space
    rcases space with ((rfl | rfl) | rfl) | rfl <;> cases digit
  have notQuote : char ≠ quote := by
    rintro rfl
    cases digit
  simp [start, notSpace, notQuote, digit]

/-- Where a digit starts something new, digits are a number. -/
theorem scan_digits
    {mode : Mode}
    (ends : ∀ char, char.isDigit = true → mode.continue? char = none)
    {digits : List Char} (nonempty : digits ≠ [])
    (areDigits : ∀ char ∈ digits, char.isDigit = true)
    (tokens : List Token) :
    scan ⟨mode, tokens⟩ digits =
      ⟨.integer digits, tokens ++ mode.pending⟩ := by
  cases digits with
  | nil => exact (nonempty rfl).elim
  | cons first more =>
      rcases List.forall_mem_cons.mp areDigits with ⟨digit, areDigits⟩
      have begun :
          step ⟨mode, tokens⟩ first =
            ⟨.integer [first], tokens ++ mode.pending⟩ := by
        simp only [step, ends first digit]
        exact start_digit _ digit
      rw [scan_cons, begun, scan_integer areDigits]
      rfl

/-! ## What stands between two quotes -/

theorem prefix_start (tokens : List Token) (char : Char) :
    tokens <+: (start tokens char).tokens := by
  unfold start
  split_ifs <;> simp

/-- Completed tokens stay. -/
theorem prefix_step (lexer : Lexer) (char : Char) :
    lexer.tokens <+: (step lexer char).tokens := by
  rw [step]
  cases lexer.mode.continue? char with
  | some mode => exact List.prefix_rfl
  | none =>
      exact
        (List.prefix_append _ lexer.mode.pending).trans
          (prefix_start _ char)

theorem finish_eq_some
    {lexer : Lexer} {tokens : List Token}
    (finished : finish lexer = some tokens) :
    (∀ value, lexer.mode ≠ .literal value) ∧
      tokens = lexer.tokens ++ lexer.mode.pending := by
  rcases lexer with ⟨mode, completed⟩
  cases mode with
  | literal value => cases finished
  | _ =>
      cases finished
      exact ⟨fun value => by simp, rfl⟩

theorem prefix_scan
    {lexer : Lexer} {text : List Char} {tokens : List Token}
    (finished : finish (scan lexer text) = some tokens) :
    lexer.tokens <+: tokens := by
  induction text generalizing lexer with
  | nil => exact ⟨lexer.mode.pending, (finish_eq_some finished).2.symm⟩
  | cons char rest induction =>
      exact (prefix_step lexer char).trans (induction finished)

/-- A literal that a quote has ended is the next token. -/
theorem exists_of_closing
    {value tail : List Char} {completed tokens : List Token}
    (free : quote ∉ tail)
    (finished : finish (scan ⟨.closing value, completed⟩ tail) = some tokens) :
    completed ++ [.literal value] <+: tokens := by
  cases tail with
  | nil =>
      cases finished
      exact List.prefix_rfl
  | cons char rest =>
      rw [List.mem_cons, not_or] at free
      rw [scan_cons, step_closing_of_ne (Ne.symm free.1)] at finished
      exact (prefix_start _ char).trans (prefix_scan finished)

/-- A literal that no quote ends is no token. -/
theorem not_finished_of_literal
    {value tail : List Char} {completed tokens : List Token}
    (free : quote ∉ tail) :
    finish (scan ⟨.literal value, completed⟩ tail) ≠ some tokens := by
  intro finished
  rw [scan_literal free] at finished
  cases finished

/--
What is read from a text with a quote behind it and none after that is a
literal no longer than the text, and shorter if the text has a quote.  The
second part is about a text that follows a quote.
-/
theorem exists_literal
    {tail : List Char} (free : quote ∉ tail) (text : List Char) :
    (∀ value completed tokens,
      finish (scan ⟨.literal value, completed⟩ (text ++ quote :: tail)) =
          some tokens →
        ∃ read, completed ++ [.literal read] <+: tokens ∧
          read.length ≤ value.length + text.length ∧
            (quote ∈ text → read.length < value.length + text.length)) ∧
      ∀ value completed tokens,
        finish (scan ⟨.closing value, completed⟩ (text ++ quote :: tail)) =
            some tokens →
          ∃ read, completed ++ [.literal read] <+: tokens ∧
            read.length ≤ value.length + text.length := by
  induction text with
  | nil =>
      constructor
      · intro value completed tokens finished
        rw [List.nil_append, scan_cons, step_literal_quote] at finished
        exact
          ⟨value, exists_of_closing free finished, Nat.le_add_right _ _,
            fun member => absurd member List.not_mem_nil⟩
      · intro value completed tokens finished
        rw [List.nil_append, scan_cons, step_closing_quote] at finished
        exact (not_finished_of_literal free finished).elim
  | cons char rest induction =>
      constructor
      · intro value completed tokens finished
        rw [List.cons_append, scan_cons] at finished
        by_cases isQuote : char = quote
        · rw [isQuote, step_literal_quote] at finished
          rcases induction.2 value completed tokens finished with
            ⟨read, taken, bound⟩
          refine ⟨read, taken, ?_, fun _ => ?_⟩ <;>
          · rw [List.length_cons]
            omega
        · rw [step_literal_of_ne isQuote] at finished
          rcases induction.1 _ completed tokens finished with
            ⟨read, taken, bound, strict⟩
          rw [List.length_append, List.length_singleton] at bound strict
          refine ⟨read, taken, ?_, fun member => ?_⟩
          · rw [List.length_cons]
            omega
          · have later := strict (List.mem_of_ne_of_mem (Ne.symm isQuote) member)
            rw [List.length_cons]
            omega
      · intro value completed tokens finished
        rw [List.cons_append, scan_cons] at finished
        by_cases isQuote : char = quote
        · rw [isQuote, step_closing_quote] at finished
          rcases induction.1 _ completed tokens finished with
            ⟨read, taken, bound, _⟩
          rw [List.length_append, List.length_singleton] at bound
          refine ⟨read, taken, ?_⟩
          rw [List.length_cons]
          omega
        · rw [step_closing_of_ne isQuote] at finished
          exact
            ⟨value, (prefix_start _ char).trans (prefix_scan finished),
              Nat.le_add_right _ _⟩

/-! ## Through the parser -/

/-- The parser of inserts accepts nothing else. -/
theorem insert_of_insertStatement
    {tokens rest : List Token} {statement : Statement}
    (parsed : insertStatement tokens = some (statement, rest)) :
    ∃ table columns values, statement = .insert table columns values := by
  rcases Option.bind_eq_some_iff.mp parsed with ⟨_, _, parsed⟩
  rcases Option.bind_eq_some_iff.mp parsed with ⟨_, _, parsed⟩
  rcases Option.bind_eq_some_iff.mp parsed with ⟨⟨table, _⟩, _, parsed⟩
  rcases Option.bind_eq_some_iff.mp parsed with ⟨⟨columns, _⟩, _, parsed⟩
  rcases Option.bind_eq_some_iff.mp parsed with ⟨_, _, parsed⟩
  rcases Option.bind_eq_some_iff.mp parsed with ⟨⟨values, _⟩, _, parsed⟩
  rcases Option.bind_eq_some_iff.mp parsed with ⟨_, _, parsed⟩
  cases parsed
  exact ⟨table, columns, values, rfl⟩

/-- A list of items starts with the first one there is. -/
theorem head?_items
    {α : Type} {item : List Token → Option (α × List Token)} {fuel : Nat}
    {tokens behind rest : List Token} {first : α} {list : List α}
    (taken : item tokens = some (first, behind))
    (parsed : items item fuel tokens = some (list, rest)) :
    list.head? = some first := by
  cases fuel with
  | zero => cases parsed
  | succ fuel =>
      rw [items, taken] at parsed
      simp only [Option.bind_eq_bind, Option.bind_some] at parsed
      split at parsed
      · cases parsed
        rfl
      · rcases Option.bind_eq_some_iff.mp parsed with
          ⟨⟨others, left⟩, _, done⟩
        cases done
        rfl
      · cases parsed

end DZFile.Sql
