import EmbeddedC.Config.MacroTable
import EmbeddedC.Layout

/-!
# Binding config

Where the compiler module and its support files live, and what every new context starts from.
-/

namespace EmbeddedC

structure NativeSection where
  /-- The layout's root. A relative one is joined to the program's directory. -/
  root : Option Path := none
  /-- The module to load in place of the layout's. -/
  module : Option Path := none
  libPath : Option Path := none
  /-- Whether contexts search the layout's own directories. -/
  defaultPaths : Bool := true
  deriving DecidableEq, Repr, Inhabited

structure CompileSection where
  includePaths : List Path := []
  sysIncludePaths : List Path := []
  libraryPaths : List Path := []
  options : Option String := none
  defines : Config.MacroTable := .empty
  deriving DecidableEq, Repr, Inhabited

structure Config where
  native : NativeSection := {}
  compile : CompileSection := {}
  deriving DecidableEq, Repr, Inhabited

namespace Config

def fileName : String := "tccbind.toml"

/-- Root and module replaced by what is given for them. An empty path gives nothing. -/
def override (c : Config) (root module : Option Path) : Config :=
  let given (p : Option Path) : Option Path := p.filter (·.bytes ≠ [])
  { c with native := { c.native with
      root := (given root).or c.native.root
      module := (given module).or c.native.module } }

def layout (programDir : Path) (c : Config) : Layout :=
  match c.native.root with
  | some root => ⟨programDir.join root⟩
  | none => .beside programDir

def modulePath (programDir : Path) (c : Config) (abi : Abi) : Path :=
  match c.native.module with
  | some module => module
  | none => (c.layout programDir).modulePath abi

end Config

end EmbeddedC
