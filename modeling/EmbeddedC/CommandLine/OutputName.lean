import EmbeddedC.CommandLine.Error
import EmbeddedC.OutputType
import EmbeddedC.Path.Name

/-!
# Output names

The file that a build writes when the command names none: the source's name with the extension of
the kind built.
-/

namespace EmbeddedC.CommandLine

inductive Kind where
  | exe
  | dll
  | obj
  | preprocess
  deriving DecidableEq, Repr

namespace Kind

def all : List Kind := [exe, dll, obj, preprocess]

def spelling : Kind → String
  | exe => "exe"
  | dll => "dll"
  | obj => "obj"
  | preprocess => "preprocess"

def ofSpelling? (s : String) : Option Kind :=
  all.find? (·.spelling = s)

def outputType : Kind → OutputType
  | exe => .executable
  | dll => .dynamicLibrary
  | obj => .object
  | preprocess => .preprocess

/-- Executables have none. -/
def extension : Kind → String
  | exe => ""
  | dll => "so"
  | obj => "o"
  | preprocess => "i"

end Kind

def defaultOutput (file : Path) (kind : Kind) : Except CommandError Path :=
  match file.stem? with
  | none => .error (.outputName file)
  | some _ => .ok (file.withExtension (Text.Utf8.encode kind.extension))

end EmbeddedC.CommandLine
