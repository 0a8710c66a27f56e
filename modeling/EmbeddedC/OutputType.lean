/-!
# Output types

What a context produces. The compiler knows each type by a code, counted from one.
-/

namespace EmbeddedC

inductive OutputType where
  | memory
  | executable
  | dynamicLibrary
  | object
  | preprocess
  deriving DecidableEq, Repr, Inhabited

namespace OutputType

def all : List OutputType :=
  [memory, executable, dynamicLibrary, object, preprocess]

def code : OutputType → Int32
  | memory => 1
  | executable => 2
  | dynamicLibrary => 3
  | object => 4
  | preprocess => 5

def ofCode? (code : Int32) : Option OutputType :=
  all.find? (·.code = code)

/-- Whether the result is written to a file. Memory output is relocated instead. -/
def isFile (t : OutputType) : Bool :=
  t ≠ memory

def text : OutputType → String
  | memory => "memory"
  | executable => "executable"
  | dynamicLibrary => "dynamic library"
  | object => "object file"
  | preprocess => "preprocessed source"

def label : OutputType → String
  | memory => "Memory"
  | executable => "Executable"
  | dynamicLibrary => "DynamicLibrary"
  | object => "Object"
  | preprocess => "Preprocess"

theorem ofCode?_eq_some_iff {code : Int32} {t : OutputType} :
    ofCode? code = some t ↔ t.code = code := by
  constructor
  · intro h
    simpa using List.find?_some h
  · rintro rfl
    cases t <;> rfl

end OutputType

end EmbeddedC
