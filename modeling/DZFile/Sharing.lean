import DZFile.Converter

/-!
# A converter and a client

The converter and the processes that use the library share the file system
and the database; descriptors, handles and the descriptor map belong to each
process.  A `World` is a store with a converter at work on it and one client
process.
-/

namespace DZFile.Sharing

open DZFile.Interaction
open DZFile.Metadata
open DZFile.Kernel
open DZFile.Converter

/-- A store, a process that converts a file, and a client process. -/
structure World where
  fs : FileSystem
  db : Db
  converter : Process
  c : Convert
  client : Process

namespace World

/-- What the converter sees. -/
def converterSys (world : World) : Sys :=
  ⟨world.fs, world.db, world.converter⟩

/-- What the client sees. -/
def clientSys (world : World) : Sys :=
  ⟨world.fs, world.db, world.client⟩

/-- A call of the client has changed what it sees. -/
def ofClient (world : World) (sys : Sys) : World :=
  { world with fs := sys.fs, db := sys.db, client := sys.proc }

/-- A client about to use a store on which a conversion starts. -/
def beside (c : Convert) (sys : Sys) : World where
  fs := sys.fs
  db := sys.db
  converter := .empty
  c := c
  client := sys.proc

/-- One call of a program of the client. -/
def clientStep
    {α : Type} (platform : Platform) (world : World) (rest : Call α)
    (choice : Choice) :
    Option (World × Call α) :=
  (advance (kernel platform) Prog.action world.clientSys rest choice).map
    fun state => (world.ofClient state.1, state.2)

/-- A step of a program is one of its calls and leaves the converter alone. -/
theorem clientStep_eq_some
    {α : Type} {platform : Platform} {world later : World}
    {rest rest' : Call α} {choice : Choice}
    (stepped : world.clientStep platform rest choice = some (later, rest')) :
    ∃ op next reply sys,
      rest = .call op next ∧
        kernel platform world.clientSys choice op = some (reply, sys) ∧
          later = world.ofClient sys ∧ rest' = next reply := by
  rcases Option.map_eq_some_iff.mp stepped with ⟨⟨sys, record⟩, advanced, same⟩
  rcases advance_eq_some.mp advanced with ⟨op, next, reply, action, called, rfl⟩
  cases same
  cases rest with
  | ret value => cases action
  | fault => cases action
  | call op' next' =>
      cases action
      exact ⟨op, next, reply, sys, rfl, called, rfl, rfl⟩

/-- One call of the converter. -/
def convert (platform : Platform) (world : World) (choice : Choice) :
    Option World :=
  (world.c.step platform world.converterSys choice).map fun state =>
    { world with
      fs := state.1.fs
      db := state.1.db
      converter := state.1.proc
      c := state.2 }

end World

end DZFile.Sharing
