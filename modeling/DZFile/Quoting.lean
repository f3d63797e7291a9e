import DZFile.Statements

/-!
# Paths in the texts of the statements

The path of a file stands between two single quotes in the texts that
`fmt_entry_insert` and `fmt_entry_delete` execute, as it is.  A path without a
single quote comes back from the text whatever else it contains.  One with a
single quote never does: the literal that is read is shorter than the path.
-/

namespace DZFile.Quoting

open DZFile.ByteSeq
open DZFile.CBuffer
open DZFile.Sql
open DZFile.Names
open DZFile.Metadata
open DZFile.Statements

/-! ## What a text does -/

/-- The table of the paths. -/
def filemeta : CString :=
  "filemeta".toList

/-- The columns an insert gives values for. -/
def filemetaColumns : List CString :=
  ["path".toList, "ctime".toList]

/-- What a statement means for the modelled tables. -/
def meaning : Statement → Option Stmt
  | .insert table columns [.text path, .integer _] =>
      if table = filemeta ∧ columns = filemetaColumns then
        some (.insertFilemeta path)
      else none
  | .delete table column (.text path) =>
      if table = filemeta ∧ column = "path".toList then
        some (.deleteFilemeta path)
      else none
  | _ => none

/-- Execute a text that is a single statement. -/
def execText (db : Db) (text : CString) : Option Db :=
  ((parse text).bind meaning).map fun stmt => stmt.exec db

/-- The insert the function is meant to execute. -/
def insertOf (path : CString) (insert_time : Int) : Statement :=
  .insert filemeta filemetaColumns
    [.text path, .integer (wrap32 insert_time)]

/-- The delete the function is meant to execute. -/
def deleteOf (path : CString) : Statement :=
  .delete filemeta "path".toList (.text path)

/--
The texts are the intended statements, the delete takes back what the insert
has added, and no row of another path is added or removed.
-/
def Survives (path : CString) (insert_time : Int) : Prop :=
  parse (insertText path insert_time) = some (insertOf path insert_time) ∧
    parse (deleteText path) = some (deleteOf path) ∧
      ∀ db, ∃ inserted deleted,
        execText db (insertText path insert_time) = some inserted ∧
          execText inserted (deleteText path) = some deleted ∧
            (path ∉ db.filemeta → deleted = db) ∧
              ∀ other, other ≠ path →
                inserted.filemeta.count other = db.filemeta.count other ∧
                  deleted.filemeta.count other = db.filemeta.count other

/-! ## The texts, token by token -/

/-- The tokens in front of the path of an insert. -/
def insertTokens : List Token :=
  [.word "insert".toList, .word "into".toList, .word filemeta, .symbol '(',
    .word "path".toList, .symbol ',', .word "ctime".toList, .symbol ')',
    .word "values".toList, .symbol '(']

/-- The tokens in front of the path of a delete. -/
def deleteTokens : List Token :=
  [.word "delete".toList, .word "from".toList, .word filemeta,
    .word "where".toList, .word "path".toList, .symbol '=']

/-- The tokens of a printed number. -/
def numberTokens (num : Int) : List Token :=
  (if num < 0 then [.symbol '-'] else []) ++
    [.integer (Nat.toDigits 10 num.natAbs)]

theorem scan_insertHead :
    scan ⟨.between, []⟩ insertHead = ⟨.literal [], insertTokens⟩ := by
  decide +kernel

theorem scan_deleteHead :
    scan ⟨.between, []⟩ deleteHead = ⟨.literal [], deleteTokens⟩ := by
  decide +kernel

theorem scan_printSigned (num : Int) (tokens : List Token) :
    scan ⟨.between, tokens⟩ (printSigned num) =
      ⟨.integer (Nat.toDigits 10 num.natAbs),
        tokens ++ if num < 0 then [.symbol '-'] else []⟩ := by
  have areDigits :
      ∀ char ∈ Nat.toDigits 10 num.natAbs, char.isDigit = true := by
    intro char member
    exact Nat.isDigit_of_mem_toDigits (by omega) (by omega) member
  rw [printSigned]
  split_ifs with negative
  · have dash :
        step ⟨.between, tokens⟩ '-' = ⟨.dash, tokens⟩ := by
      simp only [step, Mode.continue?, Mode.pending, List.append_nil]
      rfl
    have ends : ∀ char : Char,
        char.isDigit = true → Mode.dash.continue? char = none := by
      intro char digit
      have other : char ≠ '-' := by
        rintro rfl
        cases digit
      simp [Mode.continue?, other]
    rw [scan_cons, dash, scan_digits ends Nat.toDigits_ne_nil areDigits]
    rfl
  · have ends :
        ∀ char : Char, char.isDigit = true →
          Mode.between.continue? char = none :=
      fun _ _ => rfl
    exact scan_digits ends Nat.toDigits_ne_nil areDigits tokens

/-- Behind the path an insert goes on with a comma and the time. -/
theorem scan_insertMiddle (value : List Char) (tokens : List Token) :
    scan ⟨.literal value, tokens⟩ insertMiddle =
      ⟨.between, tokens ++ [.literal value] ++ [.symbol ',']⟩ := by
  rw [insertMiddle, scan_cons, step_literal_quote]
  have comma :
      step ⟨.closing value, tokens⟩ ',' =
        ⟨.between, tokens ++ [.literal value] ++ [.symbol ',']⟩ :=
    rfl
  have blank :
      step ⟨.between, tokens ++ [.literal value] ++ [.symbol ',']⟩ ' ' =
        ⟨.between, tokens ++ [.literal value] ++ [.symbol ','] ++ []⟩ :=
    rfl
  rw [List.append_nil] at blank
  exact (congrArg (step · ' ') comma).trans blank

theorem scan_close (digits : List Char) (tokens : List Token) :
    scan ⟨.integer digits, tokens⟩ ");".toList =
      ⟨.between,
        tokens ++ [.integer digits] ++ [.symbol ')'] ++ [.symbol ';']⟩ := by
  have closed :
      scan ⟨.integer digits, tokens⟩ ");".toList =
        ⟨.between,
          tokens ++ [.integer digits] ++ [.symbol ')'] ++ [] ++
            [.symbol ';']⟩ :=
    rfl
  rw [closed, List.append_nil]

theorem scan_deleteTail (value : List Char) (tokens : List Token) :
    scan ⟨.literal value, tokens⟩ (quote :: ";".toList) =
      ⟨.between, tokens ++ [.literal value] ++ [.symbol ';']⟩ := by
  rw [scan_cons, step_literal_quote]
  rfl

/-- The tokens of an insert whose path has no quote. -/
theorem lex_insertText
    {path : CString} (free : quote ∉ path) (insert_time : Int) :
    lex (insertText path insert_time) =
      some
        (insertTokens ++ [.literal path] ++ [.symbol ','] ++
          numberTokens (wrap32 insert_time) ++ [.symbol ')'] ++
            [.symbol ';']) := by
  rw [lex, insertText, scan_append, scan_append, scan_append, scan_append,
    scan_insertHead, scan_literal free, scan_insertMiddle, scan_printSigned,
    scan_close]
  simp [finish, Mode.pending, numberTokens]

/-- The tokens of a delete whose path has no quote. -/
theorem lex_deleteText {path : CString} (free : quote ∉ path) :
    lex (deleteText path) =
      some (deleteTokens ++ [.literal path] ++ [.symbol ';']) := by
  rw [lex, deleteText, scan_append, scan_append, scan_deleteHead,
    scan_literal free, scan_deleteTail]
  simp [finish, Mode.pending]

theorem parse_insertText
    {path : CString} (free : quote ∉ path) (insert_time : Int) :
    parse (insertText path insert_time) = some (insertOf path insert_time) := by
  have digits :=
    Nat.ofDigitChars_toDigits (b := 10) (n := (wrap32 insert_time).natAbs)
      (by omega) (by omega)
  rw [parse, lex_insertText free, numberTokens, insertOf]
  split_ifs with negative
  · have value :
        wrap32 insert_time =
          -Nat.ofDigitChars 10
            (Nat.toDigits 10 (wrap32 insert_time).natAbs) 0 := by
      rw [digits]
      omega
    conv_rhs => rw [value]
    rfl
  · have value :
        wrap32 insert_time =
          Nat.ofDigitChars 10
            (Nat.toDigits 10 (wrap32 insert_time).natAbs) 0 := by
      rw [digits]
      omega
    conv_rhs => rw [value]
    rfl

theorem parse_deleteText {path : CString} (free : quote ∉ path) :
    parse (deleteText path) = some (deleteOf path) := by
  rw [parse, lex_deleteText free]
  rfl

/-! ## A path with a quote -/

theorem quote_not_mem_printSigned (num : Int) :
    quote ∉ printSigned num := by
  intro member
  rw [printSigned] at member
  have digit : quote ∉ Nat.toDigits 10 num.natAbs := by
    intro member
    exact
      absurd (Nat.isDigit_of_mem_toDigits (by omega) (by omega) member)
        (by decide)
  split_ifs at member
  · rcases List.mem_cons.mp member with same | later
    · exact absurd same (by decide)
    · exact digit later
  · exact digit member

/-- A text that was parsed has tokens that one of the two parsers accepts. -/
theorem exists_tokens_of_parse
    {text : CString} {statement : Statement}
    (parsed : parse text = some statement) :
    ∃ tokens rest, lex text = some tokens ∧
      (insertStatement tokens = some (statement, rest) ∨
        deleteStatement tokens = some (statement, rest)) := by
  rcases Option.bind_eq_some_iff.mp parsed with ⟨tokens, lexed, parsed⟩
  rcases Option.bind_eq_some_iff.mp parsed with
    ⟨⟨accepted, rest⟩, parsed, whole⟩
  dsimp only at whole
  split_ifs at whole
  cases whole
  refine ⟨tokens, rest, lexed, ?_⟩
  cases inserting : insertStatement tokens with
  | some other =>
      rw [inserting] at parsed
      exact Or.inl parsed
  | none =>
      rw [inserting] at parsed
      exact Or.inr parsed

/-- The first value of an insert is the literal behind the parenthesis. -/
theorem head?_of_insertStatement
    {read : CString} {more rest : List Token}
    {table : CString} {columns : List CString} {values : List Value}
    (parsed :
      insertStatement (insertTokens ++ [.literal read] ++ more) =
        some (.insert table columns values, rest)) :
    values.head? = some (.text read) := by
  have reduced :
      insertStatement (insertTokens ++ [.literal read] ++ more) =
        (items value (more.length + 1) (.literal read :: more)).bind
          fun row =>
            (expect (.symbol ';') row.2).bind fun rest =>
              some (.insert filemeta filemetaColumns row.1, rest) :=
    rfl
  rw [reduced] at parsed
  rcases Option.bind_eq_some_iff.mp parsed with ⟨⟨row, left⟩, taken, parsed⟩
  rcases Option.bind_eq_some_iff.mp parsed with ⟨behind, _, parsed⟩
  cases parsed
  exact head?_items rfl taken

/-- The literal behind the parenthesis is the path, or shorter. -/
theorem exists_literal_of_insertText
    {path : CString} {insert_time : Int} {tokens : List Token}
    (lexed : lex (insertText path insert_time) = some tokens) :
    ∃ read, insertTokens ++ [.literal read] <+: tokens ∧
      read.length ≤ path.length ∧
        (quote ∈ path → read.length < path.length) := by
  have tailFree :
      quote ∉
        ", ".toList ++ (printSigned (wrap32 insert_time) ++ ");".toList) := by
    rw [List.mem_append, List.mem_append]
    rintro (first | number | last)
    · exact absurd first (by decide)
    · exact quote_not_mem_printSigned _ number
    · exact absurd last (by decide)
  have regroup :
      insertText path insert_time =
        insertHead ++
          (path ++ quote ::
            (", ".toList ++
              (printSigned (wrap32 insert_time) ++ ");".toList))) := by
    simp [insertText, insertMiddle]
  rw [lex, regroup, scan_append, scan_insertHead] at lexed
  rcases (exists_literal tailFree path).1 [] insertTokens tokens lexed with
    ⟨read, taken, bound, shorter⟩
  rw [List.length_nil, Nat.zero_add] at bound shorter
  exact ⟨read, taken, bound, shorter⟩

/-- A text with the path in it is an insert of the literal, if anything. -/
theorem insert_of_parse
    {path : CString} {insert_time : Int} {statement : Statement}
    (parsed : parse (insertText path insert_time) = some statement) :
    ∃ read,
      (read.length ≤ path.length ∧
        (quote ∈ path → read.length < path.length)) ∧
        ∃ table columns values,
          statement = .insert table columns values ∧
            values.head? = some (.text read) := by
  rcases exists_tokens_of_parse parsed with ⟨tokens, rest, lexed, accepted⟩
  rcases exists_literal_of_insertText lexed with ⟨read, ⟨more, rfl⟩, bounds⟩
  refine ⟨read, bounds, ?_⟩
  rcases accepted with inserting | deleting
  · rcases insert_of_insertStatement inserting with
      ⟨table, columns, values, rfl⟩
    exact ⟨table, columns, values, rfl, head?_of_insertStatement inserting⟩
  · cases deleting

/-- The literal of an insert is the path only if it has no quote. -/
theorem quote_not_mem_of_parse
    {path : CString} {insert_time : Int}
    (parsed :
      parse (insertText path insert_time) =
        some (insertOf path insert_time)) :
    quote ∉ path := by
  rcases insert_of_parse parsed with
    ⟨read, ⟨_, shorter⟩, table, columns, values, same, first⟩
  cases same
  cases first
  intro member
  exact Nat.lt_irrefl _ (shorter member)

/-! ## What is executed -/

/-- The text is one statement about the modelled tables. -/
def OneStatement (path : CString) (insert_time : Int) : Prop :=
  ((parse (insertText path insert_time)).bind meaning).isSome

instance (path : CString) (insert_time : Int) :
    Decidable (OneStatement path insert_time) :=
  inferInstanceAs (Decidable (_ = true))

/-- What becomes of a path between the quotes: with a quote it gets shorter. -/
def ReadAs (path row : CString) : Prop :=
  (quote ∉ path ∧ row = path) ∨ (quote ∈ path ∧ row.length < path.length)

theorem ReadAs.length_le
    {path row : CString} (readAs : ReadAs path row) :
    row.length ≤ path.length := by
  rcases readAs with ⟨_, rfl⟩ | ⟨_, shorter⟩
  · exact Nat.le_refl _
  · exact Nat.le_of_lt shorter

theorem oneStatement_of_free
    {path : CString} (free : quote ∉ path) (insert_time : Int) :
    OneStatement path insert_time := by
  rw [OneStatement, parse_insertText free]
  rfl

/-- A text that is one statement inserts what the path is read as. -/
theorem execText_insertText
    {path : CString} {insert_time : Int}
    (single : OneStatement path insert_time) :
    ∃ row, ReadAs path row ∧
      ∀ db,
        execText db (insertText path insert_time) =
          some ((Stmt.insertFilemeta row).exec db) := by
  by_cases free : quote ∈ path
  · rcases Option.isSome_iff_exists.mp single with ⟨stmt, meant⟩
    rcases Option.bind_eq_some_iff.mp meant with ⟨statement, parsed, means⟩
    rcases insert_of_parse parsed with
      ⟨read, ⟨_, shorter⟩, table, columns, values, rfl, first⟩
    have row : stmt = .insertFilemeta read := by
      unfold meaning at means
      split at means
      · rename_i same
        cases same
        split at means
        · cases means
          cases first
          rfl
        · cases means
      · rename_i same
        cases same
      · cases means
    refine ⟨read, Or.inr ⟨free, shorter free⟩, fun db => ?_⟩
    rw [execText, meant, row]
    rfl
  · refine ⟨path, Or.inl ⟨free, rfl⟩, fun db => ?_⟩
    rw [execText, parse_insertText free]
    rfl

/-- Executing the intended statements. -/
theorem exec_survivor (path : CString) (db : Db) :
    (path ∉ db.filemeta →
        (Stmt.deleteFilemeta path).exec ((Stmt.insertFilemeta path).exec db) =
          db) ∧
      ∀ other, other ≠ path →
        ((Stmt.insertFilemeta path).exec db).filemeta.count other =
            db.filemeta.count other ∧
          ((Stmt.deleteFilemeta path).exec
              ((Stmt.insertFilemeta path).exec db)).filemeta.count other =
            db.filemeta.count other := by
  constructor
  · intro absent
    have kept : db.filemeta.filter (· ≠ path) = db.filemeta := by
      apply List.filter_eq_self.mpr
      intro other member
      simpa using ne_of_mem_of_not_mem member absent
    simp only [Stmt.exec, List.filter_append, kept]
    simp
  · intro other different
    have added :
        ((Stmt.insertFilemeta path).exec db).filemeta.count other =
          db.filemeta.count other := by
      simp [Stmt.exec, List.count_append, Ne.symm different]
    refine ⟨added, ?_⟩
    rw [← added]
    exact List.count_filter (by simpa using different)

/-- The texts of a path do what they should exactly if it has no quote. -/
theorem survives_iff (path : CString) (insert_time : Int) :
    Survives path insert_time ↔ quote ∉ path := by
  constructor
  · intro survives
    exact quote_not_mem_of_parse survives.1
  · intro free
    refine
      ⟨parse_insertText free insert_time, parse_deleteText free, fun db => ?_⟩
    refine ⟨_, _, ?_, ?_, exec_survivor path db⟩
    · rw [execText, parse_insertText free]
      rfl
    · rw [execText, parse_deleteText free]
      rfl

/-- A file called `it's`. -/
def quotedPath : CString :=
  "/d/it".toList ++ [quote] ++ "s".toList

/-- Its insert is no statement, and there is room enough for the text. -/
theorem quotedPath_does_not_survive :
    ¬ ∀ path insert_time,
      nul ∉ path → BuffersSuffice path insert_time →
        Survives path insert_time := by
  intro always
  have fits : BuffersSuffice quotedPath 0 := by
    apply buffersSuffice_of_length_le
    decide +kernel
  have survives := always quotedPath 0 (by decide) fits
  have free := quote_not_mem_of_parse survives.1
  exact absurd free (by decide)

end DZFile.Quoting
