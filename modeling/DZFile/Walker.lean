import DZFile.Api
import DZFile.Converter

/-!
# What the walker converts

`process_file` of `dzfile-walker.cc`, which a pool thread runs on every path
the main loop hands it, and the test of the file's extension.  A path that
passes all tests is handed to `convert2h5`; the value returned here is the
target of that call.
-/

namespace DZFile.Walker

open DZFile.Interaction
open DZFile.Names
open DZFile.Kernel
open DZFile.Api
open DZFile.Converter

/-- The policy of the configuration file, as far as `process_file` reads it. -/
structure Policy where
  low_size : Int
  blacklist : CString

/-- The text after the last dot, if there is one. -/
def afterLastDot : CString → Option CString
  | [] => none
  | char :: rest =>
      match afterLastDot rest with
      | some extension => some extension
      | none => if char = '.' then some rest else none

/--
The loop that decomposes the list of extensions, over the pieces between its
semicolons.  `exts` keeps its value over an empty piece, and the last piece is
taken as it stands.
-/
def extensionList (exts : CString) : List CString → List CString
  | [] => []
  | [last] => if last = [] then [] else [last]
  | piece :: rest =>
      let exts :=
        if piece = [] then exts else (afterLastDot piece).getD piece
      exts :: extensionList exts rest

/-- `match_extension`. -/
def match_extension (filename extensions : CString) : Bool :=
  match afterLastDot filename with
  | none => false
  | some ext => ext ∈ extensionList [] (extensions.splitOn ';')

/-- The call of `convert2h5`, which does nothing for a path without a slash. -/
def conversionOf (path : CString) : Option Target :=
  match built : buildHiddenFile path with
  | none => none
  | some h5name => some ⟨path, h5name, built⟩

/-- `process_file` up to its call of `convert2h5`. -/
def process_file (policy : Policy) (filename : CString) :
    Call (Option Target) :=
  if match_sysdir filename || match_hiddenfile [] filename then return none
  else do
    let found ← perform (.stat filename)
    match found with
    | .error _ => return none
    | .ok stbuf =>
        if (stbuf.size : Int) < policy.low_size then return none
        else do
          let ret ← findhiddenFile filename
          if ret = 1 then return none
          else if match_extension filename policy.blacklist then return none
          else return conversionOf filename

example :
    match_extension ['f', '.', 'g', 'z']
      ['g', 'z', ';', '*', '.', 'j', 'p', 'g'] = true := by
  decide

end DZFile.Walker
