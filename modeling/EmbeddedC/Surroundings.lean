import EmbeddedC.Path

/-!
# Surroundings

What a process finds around it and does not change: the directory it is installed in, and its
environment variables.
-/

namespace EmbeddedC

structure Surroundings where
  programDir : Path
  environment : List (String × Path) := []
  deriving DecidableEq, Repr

namespace Surroundings

def value? (s : Surroundings) (name : String) : Option Path :=
  s.environment.lookup name

/-- Names a config file to read in place of the one beside the program. -/
def configFile? (s : Surroundings) : Option Path := s.value? "TCCBIND_CONFIG"

/-- Overrides the root of the layout. -/
def root? (s : Surroundings) : Option Path := s.value? "TCCBIND_ROOT"

/-- Overrides the module. -/
def module? (s : Surroundings) : Option Path := s.value? "TCCBIND_LIB"

end Surroundings

end EmbeddedC
