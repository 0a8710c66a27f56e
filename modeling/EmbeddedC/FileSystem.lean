import EmbeddedC.Entry
import EmbeddedC.Error
import EmbeddedC.Path

/-!
# File system

A tree of directories and files kept flat, each node under its absolute location. A path is walked
segment by segment: every segment but the last must name a directory, and so must the last one when
a slash or a dot follows it.
-/

namespace EmbeddedC

/-- What a file holds: bytes, or a compiler module that the loader can open. -/
inductive Content where
  | bytes (data : List UInt8)
  | library (exports : List Entry)
  deriving DecidableEq, Repr

inductive FileSystem.Node where
  | directory
  | file (content : Content)
  deriving DecidableEq, Repr

abbrev Location := List (List UInt8)

structure FileSystem where
  nodes : List (Location × FileSystem.Node) := []
  workDir : Location := []
  deriving DecidableEq, Repr, Inhabited

namespace FileSystem

def longestName : Nat := 255

/-- A path must be shorter than this. -/
def pathLimit : Nat := 4096

def node? (fs : FileSystem) (location : Location) : Option Node :=
  if location = [] then some .directory else fs.nodes.lookup location

/-- One step of a walk. What it starts from must be a directory. -/
def step (fs : FileSystem) (location : Location) (segment : List UInt8) :
    Except FileFault Location :=
  match fs.node? location with
  | none => .error .notFound
  | some (.file _) => .error .notADirectory
  | some .directory =>
    if segment = [] ∨ segment = [Path.dot] then .ok location
    else if segment = [Path.dot, Path.dot] then .ok location.dropLast
    else if segment.length > longestName then .error .nameTooLong
    else .ok (location ++ [segment])

/-- The location a path leads to. Nothing need be there. -/
def locate (fs : FileSystem) (p : Path) : Except FileFault Location :=
  if (0 : UInt8) ∈ p.bytes then .error .nulInPath
  else if p.bytes = [] then .error .notFound
  else if p.bytes.length ≥ pathLimit then .error .nameTooLong
  else p.segments.foldlM fs.step (if p.isAbsolute then [] else fs.workDir)

/-- What a path leads to. -/
def find (fs : FileSystem) (p : Path) : Except FileFault Node := do
  match fs.node? (← fs.locate p) with
  | some node => pure node
  | none => throw .notFound

def file? (fs : FileSystem) (p : Path) : Option Content :=
  match fs.find p with
  | .ok (.file content) => some content
  | _ => none

def isFile (fs : FileSystem) (p : Path) : Bool :=
  (fs.file? p).isSome

/-- Reads a file as text. A compiler module is none. -/
def readText (fs : FileSystem) (p : Path) : Except FileFault String := do
  match ← fs.find p with
  | .directory => throw .isADirectory
  | .file (.library _) => throw .notText
  | .file (.bytes data) =>
    match Text.Utf8.decode? data with
    | some text => pure text
    | none => throw .notText

/-- Puts a node at a location, in place of what was there. -/
def put (fs : FileSystem) (location : Location) (node : Node) : FileSystem :=
  { fs with nodes := (location, node) :: fs.nodes.filter (·.1 ≠ location) }

/-- Puts a node at a location and makes the directories above it that are missing. -/
def plant (fs : FileSystem) (location : Location) (node : Node) : FileSystem :=
  let above := (List.range location.length).map fun n => location.take n
  let fs := above.foldl (fun fs l => if (fs.node? l).isSome then fs else fs.put l .directory) fs
  fs.put location node

/-- Writes a file, over an old one or in an existing directory. -/
def write (fs : FileSystem) (p : Path) (data : List UInt8) : Except FileFault FileSystem := do
  let location ← fs.locate p
  match fs.node? location, fs.node? location.dropLast with
  | some .directory, _ => throw .isADirectory
  | some (.file _), _ => pure (fs.put location (.file (.bytes data)))
  | none, some .directory => pure (fs.put location (.file (.bytes data)))
  | none, _ => throw .notFound

/-- The files under the working directory whose content differs from what `before` holds there,
named by their paths from it. -/
def changes (before after : FileSystem) : List (Path × Content) :=
  after.nodes.filterMap fun (location, node) =>
    match node with
    | .directory => none
    | .file content =>
      if after.workDir.isPrefixOf location ∧ before.node? location ≠ some node then
        let below := location.drop after.workDir.length
        some (⟨[Path.slash].intercalate below⟩, content)
      else none

end FileSystem

end EmbeddedC
