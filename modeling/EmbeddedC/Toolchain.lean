import EmbeddedC.Config.Source
import EmbeddedC.Job

/-!
# Toolchains

A loaded compiler module together with the config that every new context starts from. Opening a
context applies the config operation by operation; if one fails, the half-made context is released.
-/

namespace EmbeddedC

structure Toolchain where
  table : EntryTable
  layout : Layout
  config : Config
  deriving DecidableEq, Repr

namespace Toolchain

def ofTable (programDir : Path) (table : EntryTable) (config : Config) : Toolchain :=
  { table, layout := config.layout programDir, config }

/-- Loads the host's compiler module as the config describes it. -/
def loadWith (loader : EntryTable.Loader) (files : FileSystem) (programDir : Path)
    (config : Config) : Except BindError Toolchain × List LogRecord :=
  let (table, log) := EntryTable.loadWith loader files .host (config.modulePath programDir .host)
  ((table.map (ofTable programDir · config)).mapError .load, log)

def load (files : FileSystem) : Path → Config → Except BindError Toolchain × List LogRecord :=
  loadWith (EntryTable.openModule? files) files

/-- Loads the compiler module that a config, once found, describes. -/
def loadFoundWith (loader : EntryTable.Loader) (files : FileSystem) (around : Surroundings)
    (found : Except ConfigError Config × List LogRecord) :
    Except BindError Toolchain × List LogRecord :=
  match found with
  | (.error e, log) => (.error (.config e), log)
  | (.ok config, log) =>
    let (toolchain, more) := loadWith loader files around.programDir config
    (toolchain, log ++ more)

def discoverWith (loader : EntryTable.Loader) (files : FileSystem) (around : Surroundings) :
    Except BindError Toolchain × List LogRecord :=
  loadFoundWith loader files around (Config.discover files around)

def discover (files : FileSystem) : Surroundings → Except BindError Toolchain × List LogRecord :=
  discoverWith (EntryTable.openModule? files) files

def outline (t : Toolchain) : Text.Outline :=
  .closed "Toolchain"
    [("abi", .text t.table.abi.label), ("module", .text t.table.origin.quoted),
      ("layout", t.layout.outline)]

/-- The operations that a new context starts with, in order. -/
def plan (t : Toolchain) : List Operation :=
  let native := t.config.native
  let compile := t.config.compile
  native.libPath.toList.map .setLibPath ++
    (if native.defaultPaths then
      t.layout.defaultIncludeDirs.map .addIncludePath ++ [.addLibraryPath t.layout.libDir]
    else []) ++
    compile.includePaths.map .addIncludePath ++
    compile.sysIncludePaths.map .addSysIncludePath ++
    compile.libraryPaths.map .addLibraryPath ++
    compile.defines.map (fun (name, value) => .defineSymbol name (some value)) ++
    compile.options.toList.map .setOptions

end Toolchain

variable {σ : Type} (compiler : Compiler σ)

/-- Works on a context that nobody else holds yet. If that fails the context is released. -/
def Context.prepare (c : Context) (x : ContextAction σ Value) :
    Action Event (World σ) BindError Context :=
  fun w =>
    match x ⟨c, w⟩ with
    | ⟨.ok _, s, events⟩ => ⟨.ok s.context, s.world, events⟩
    | ⟨.error e, s, events⟩ =>
      let released := ContextAction.release compiler s
      ⟨.error e, released.state.world, events ++ released.events⟩

/-- A new context with the config applied. -/
def Toolchain.openContext (t : Toolchain) : Action Event (World σ) BindError Context := do
  let c ← Context.create compiler t.table
  c.prepare compiler (Operation.performAll compiler t.plan)

end EmbeddedC
