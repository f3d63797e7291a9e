import DZFile.Protection
import DZFile.Library.Strtok

/-!
# The scan for the protected directory, in memory

`match_sysdir` copies its path, lets `strtok` cut the copy at its slashes and
compares every token with `.dzs`.  Here it is executed on the copy: the tokens
are offsets into a buffer that `strtok` edits, and its saved place is the only
thing that carries over from one round to the next.  The scan of the text in
`DZFile.Names` is what it computes.
-/

namespace DZFile.SysdirScan

open DZFile.CBuffer
open DZFile.Strtok
open DZFile.Names
open DZFile.Protection

/-- The one delimiter, `"/"`. -/
def isSlash (char : Char) : Bool :=
  char == '/'

/--
The token loop of `match_sysdir` on the copy of the path; nothing when it
leaves the copy or does not end within the rounds given.
-/
def matchSysdirLoopIn : Nat → Scanner → Option Int
  | 0, _ => none
  | fuel + 1, scanner => do
      let (dir_token, later) ← strtok isSlash scanner
      match dir_token with
      | none => return 0
      | some dir_token => do
          let token ← text (later.buffer.drop dir_token)
          if token = dotDzs then return 1
          else matchSysdirLoopIn fuel later

/-- `match_sysdir` on `strdup(path)`. -/
def match_sysdirIn (path : CString) : Option Int :=
  matchSysdirLoopIn (path.length + 1) ⟨path ++ [nul], 0⟩

/-- The step on the text is the library's. -/
theorem strtokSlash_eq (path : CString) :
    strtokSlash path = firstToken isSlash path :=
  rfl

/-- What is left behind a token is a shorter end of the text. -/
theorem firstToken_left
    {delim : Char → Bool} {string token left : List Char}
    (found : firstToken delim string = some (token, left)) :
    left.length < string.length ∧ ∀ char ∈ left, char ∈ string := by
  rcases exists_parts found with ⟨skip, tail, rfl, _, _, nonempty, rfl⟩
  constructor
  · have positive := List.length_pos_of_ne_nil nonempty
    simp only [List.length_append, List.length_drop] at positive ⊢
    omega
  · intro char member
    have inTail : char ∈ tail := List.mem_of_mem_drop member
    simp [inTail]

/-- The loop finds in memory what the scan of the text finds. -/
theorem matchSysdirLoopIn_eq
    {fuel : Nat} {left : CString}
    (terminated : nul ∉ left) (enough : left.length < fuel)
    (passed rest : List Char) :
    matchSysdirLoopIn fuel ⟨passed ++ left ++ nul :: rest, passed.length⟩ =
      some (if matchSysdirLoop fuel left then 1 else 0) := by
  induction fuel generalizing left passed with
  | zero => omega
  | succ fuel induction =>
      rw [matchSysdirLoopIn, matchSysdirLoop, strtokSlash_eq]
      cases found : firstToken isSlash left with
      | none =>
          rw [strtok_none passed rest terminated found]
          rfl
      | some next =>
          rcases next with ⟨token, behind⟩
          rcases strtok_some passed rest terminated found with
            ⟨start, later, stepped, tokenText⟩
          have shorter := (firstToken_left found).1
          have stillTerminated : nul ∉ behind := fun member =>
            terminated ((firstToken_left found).2 nul member)
          rw [stepped]
          simp only [Option.bind_eq_bind, Option.bind_some, tokenText]
          by_cases protectedName : token = dotDzs
          · simp [protectedName]
          · simp only [protectedName, if_false]
            exact induction stillTerminated (by omega) later

/-- The functions on memory and on text agree. -/
theorem match_sysdirIn_eq
    {path : CString} (terminated : nul ∉ path) :
    match_sysdirIn path = some (if match_sysdir path then 1 else 0) :=
  matchSysdirLoopIn_eq terminated (Nat.lt_succ_self path.length) [] []

/--
`match_sysdir` stays inside its copy, ends, and returns 1 exactly when `.dzs`
is a component of the path.
-/
theorem match_sysdirIn_exact
    (path : CString) (terminated : nul ∉ path) :
    match_sysdirIn path =
      some (if dotDzs ∈ components path then 1 else 0) := by
  rw [match_sysdirIn_eq terminated]
  simp only [match_sysdir_eq_true_iff]

/-- A name that only begins like the protected one is passed over. -/
theorem match_sysdirIn_exact_extended :
    match_sysdirIn "//d/.dzsx//.dzs/".toList = some 1 ∧
      match_sysdirIn "/d/.dzsx/x.dzs/.dz".toList = some 0 := by
  constructor
  · rw [match_sysdirIn_exact "//d/.dzsx//.dzs/".toList (by decide)]
    decide
  · rw [match_sysdirIn_exact "/d/.dzsx/x.dzs/.dz".toList (by decide)]
    decide

end DZFile.SysdirScan
