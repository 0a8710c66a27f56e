import EmbeddedC.Abi
import EmbeddedC.Path
import EmbeddedC.Text.Outline

/-!
# Compiler layout

The directories of a packaged compiler, all under one root: a module for each binary interface, the
library directory, and the headers that a fresh context searches.
-/

namespace EmbeddedC

structure Layout where
  root : Path
  deriving DecidableEq, Repr

namespace Layout

def moduleFileName : String := "libtcc.so"

/-- The layout beside a program installed in `dir`. -/
def beside (dir : Path) : Layout :=
  ⟨dir.child "native"⟩

def modulePath (l : Layout) (abi : Abi) : Path :=
  (l.root.child abi.moduleDir).child moduleFileName

def libDir (l : Layout) : Path :=
  l.root.child "lib"

def compilerIncludeDir (l : Layout) : Path :=
  l.root.child "libtcc"

def includeDir (l : Layout) : Path :=
  l.root.child "include"

def platformIncludeDir (l : Layout) : Path :=
  l.includeDir.child "winapi"

/-- The header directories in search order. -/
def defaultIncludeDirs (l : Layout) : List Path :=
  [l.includeDir, l.compilerIncludeDir, l.platformIncludeDir]

def outline (l : Layout) : Text.Outline :=
  .closed "NativeLayout" [("root", .text l.root.quoted)]

end Layout

end EmbeddedC
