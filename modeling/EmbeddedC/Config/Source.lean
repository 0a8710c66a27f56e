import EmbeddedC.Config.Decode
import EmbeddedC.FileSystem
import EmbeddedC.Log
import EmbeddedC.Surroundings

/-!
# Config sources

An installed program reads the config file its environment names, else the one beside it, else uses
the defaults; overrides from the environment come last. A file that was read is logged.
-/

namespace EmbeddedC.Config

/-- A config file and what reading it logs. -/
def ofFile (fs : FileSystem) (path : Path) : Except ConfigError Config × List LogRecord :=
  match fs.readText path with
  | .error cause => (.error (.unreadable path cause), [])
  | .ok text =>
    match ofText text path with
    | .error e => (.error e, [])
    | .ok c => (.ok c, [.loadedConfig path])

def applyEnvironment (s : Surroundings) (c : Config) : Config :=
  c.override s.root? s.module?

/-- The config at a path, as the environment overrides it. -/
def ofFileIn (fs : FileSystem) (s : Surroundings) (path : Path) :
    Except ConfigError Config × List LogRecord :=
  let (read, log) := ofFile fs path
  (read.map (applyEnvironment s), log)

def besideProgram (s : Surroundings) : Path :=
  s.programDir.child fileName

def discover (fs : FileSystem) (s : Surroundings) : Except ConfigError Config × List LogRecord :=
  match s.configFile? with
  | some path => ofFileIn fs s path
  | none =>
    if fs.isFile (besideProgram s) then ofFileIn fs s (besideProgram s)
    else (.ok (applyEnvironment s {}), [])

end EmbeddedC.Config
