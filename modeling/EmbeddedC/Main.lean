import EmbeddedC.CommandLine.Report
import EmbeddedC.Scripted.Surroundings

/-!
# The program

Gathers the command line, the environment and the files that a command can name, has the command
carried out by the scripted compiler, and puts what it leaves behind where it belongs.
-/

namespace EmbeddedC.Program

open CommandLine

/-- The location that a path spells, whether anything is there or not. -/
def spelledLocation (fs : FileSystem) (path : Path) : Location :=
  path.components.foldl
    (fun location c =>
      match c with
      | .root => []
      | .current => location
      | .up => location.dropLast
      | .normal name => location ++ [name])
    fs.workDir

/-- A path's beginnings, from its first segment alone to the whole. -/
def beginnings (path : Path) : List Path :=
  (List.range path.segments.length).map fun n =>
    ⟨[Path.slash].intercalate (path.segments.take (n + 1))⟩

def nodeAt? (path : Path) : IO (Option FileSystem.Node) := do
  try
    let data ← IO.FS.readBinFile path.display
    pure (some (.file (.bytes data.toList)))
  catch
    | .inappropriateType .. => pure (some .directory)
    | _ => pure none

/-- What a path leads through and to. -/
def gather (fs : FileSystem) (path : Path) : IO FileSystem :=
  (beginnings path).foldlM (fun fs p => do
    match ← nodeAt? p with
    | some node => pure (fs.plant (spelledLocation fs p) node)
    | none => pure fs) fs

def variableNames : List String :=
  ["TCCBIND_CONFIG", "TCCBIND_ROOT", "TCCBIND_LIB", "FAKETCC_STATUS", "FAKETCC_DEMO"]

def gatherVariables : IO (List (String × Path)) :=
  variableNames.filterMapM fun name => do
    pure ((← IO.getEnv name).map fun value => (name, .ofString value))

/-- The file that a command writes, if it writes one. -/
def outputPath? (i : Invocation) : Option Path :=
  match i.command with
  | .build file output? kind => output?.or (defaultOutput file kind).toOption
  | _ => none

/-- The paths at which a command reads or writes. -/
def namedPaths (around : Surroundings) (i : Invocation) : List Path :=
  (match i.command with
    | .run file _ | .build file _ _ => [file]
    | .demo => []) ++
    (outputPath? i).toList ++ i.flags.config?.toList ++ around.configFile?.toList ++
    [Config.besideProgram around]

def usage : String :=
  "usage: tccbind [OPTIONS] run FILE [-- ARGS...] | build FILE [-o OUT] [--kind KIND] | demo"

/-- Writes a file that a command has changed. -/
def putBack (before after : FileSystem) (path : Path) : IO Unit := do
  match after.file? path with
  | some (.bytes data) =>
    if before.file? path ≠ some (.bytes data) then
      IO.FS.writeBinFile path.display ⟨data.toArray⟩
  | _ => pure ()

end EmbeddedC.Program

open EmbeddedC EmbeddedC.CommandLine EmbeddedC.Program in
def main (words : List String) : IO UInt32 := do
  match Invocation.ofWords? words with
  | none =>
    IO.eprintln usage
    pure 2
  | some invocation =>
    let around : Surroundings :=
      { programDir := .ofString (toString (← IO.appDir)), environment := ← gatherVariables }
    let base : FileSystem := {}
    let workDir := spelledLocation base (.ofString (toString (← IO.currentDir)))
    let base := { base with workDir }.plant workDir .directory
    let files ← (namedPaths around invocation).foldlM gather base
    let module := (Layout.beside around.programDir).modulePath .host
    let files := files.plant (spelledLocation files module) (.file (.library Entry.all))
    let outcome := invocation.perform Scripted.compiler around
      { outside := .ofSurroundings files around }
    let shown := transcript invocation.flags.verbosity outcome
    shown.errors.forM fun line => IO.eprintln line
    shown.output.forM fun line => IO.println line
    (outputPath? invocation).toList.forM (putBack files outcome.state.outside.files)
    pure shown.exit.toUInt32
