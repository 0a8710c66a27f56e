import EmbeddedC.FileSystem
import EmbeddedC.Log

/-!
# Entry tables

A compiler module is loaded once, for one binary interface, and all its entry points are looked up
then. A path that names a file in some directory must name one that is there; a bare name is left to
the system's library search, which knows no compiler, and an empty one means the running program.
-/

namespace EmbeddedC

/-- The entry points of a loaded module. All are present; where they came from is for the log. -/
structure EntryTable where
  abi : Abi
  origin : Path
  deriving DecidableEq, Repr

namespace EntryTable

/-- The exports of the module that a path opens, if it opens one. -/
abbrev Loader := Path → Option (List Entry)

/-- The path that the loader reads. A NUL at the very end is the end of the text, not part of it. -/
def unterminated (path : Path) : Path :=
  if path.bytes.getLast? = some 0 then ⟨path.bytes.dropLast⟩ else path

/-- What the loader opens at a path: the module's exports. A path without a slash is searched for
among the system's libraries. The running program, which the empty path names, exports nothing. -/
def openModule? (fs : FileSystem) : Loader := fun path =>
  let path := unterminated path
  if path.bytes = [] then some []
  else if Path.slash ∉ path.bytes then none
  else match fs.file? path with
    | some (.library exports) => some exports
    | _ => none

/-- Opens a module and looks up its entry points in order. -/
def resolveWith (loader : Loader) (abi : Abi) (path : Path) : Except LoadError EntryTable :=
  match loader path with
  | none => .error (.loadFailed path)
  | some exports =>
    match Entry.firstMissing? exports with
    | some entry => .error (.missingEntry entry)
    | none => .ok ⟨abi, path⟩

/-- Loads a table that the host can drive. -/
def loadWith (loader : Loader) (fs : FileSystem) (abi : Abi) (path : Path) :
    Except LoadError EntryTable × List LogRecord :=
  if !abi.isHost then (.error (.abiMismatch abi pointerBits), [])
  else if !fs.isFile path && path.components.length > 1 then (.error (.moduleNotFound path), [])
  else
    match resolveWith loader abi path with
    | .error e => (.error e, [.loadingTable abi path])
    | .ok table => (.ok table, [.loadingTable abi path, .loadedTable abi path])

def resolve (fs : FileSystem) : Abi → Path → Except LoadError EntryTable :=
  resolveWith (openModule? fs)

def load (fs : FileSystem) : Abi → Path → Except LoadError EntryTable × List LogRecord :=
  loadWith (openModule? fs) fs

end EntryTable

end EmbeddedC
