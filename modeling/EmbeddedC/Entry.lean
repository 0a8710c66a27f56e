/-!
# Entry points

The functions a compiler module must export, in the order in which they are looked up.
-/

namespace EmbeddedC

inductive Entry where
  | new
  | delete
  | setLibPath
  | setErrorFunc
  | setOptions
  | addIncludePath
  | addSysIncludePath
  | defineSymbol
  | undefineSymbol
  | addFile
  | compileString
  | setOutputType
  | addLibraryPath
  | addLibrary
  | addSymbol
  | relocate
  | getSymbol
  | run
  | outputFile
  deriving DecidableEq, Repr

namespace Entry

def all : List Entry :=
  [new, delete, setLibPath, setErrorFunc, setOptions, addIncludePath, addSysIncludePath,
    defineSymbol, undefineSymbol, addFile, compileString, setOutputType, addLibraryPath,
    addLibrary, addSymbol, relocate, getSymbol, run, outputFile]

def name : Entry → String
  | new => "tcc_new"
  | delete => "tcc_delete"
  | setLibPath => "tcc_set_lib_path"
  | setErrorFunc => "tcc_set_error_func"
  | setOptions => "tcc_set_options"
  | addIncludePath => "tcc_add_include_path"
  | addSysIncludePath => "tcc_add_sysinclude_path"
  | defineSymbol => "tcc_define_symbol"
  | undefineSymbol => "tcc_undefine_symbol"
  | addFile => "tcc_add_file"
  | compileString => "tcc_compile_string"
  | setOutputType => "tcc_set_output_type"
  | addLibraryPath => "tcc_add_library_path"
  | addLibrary => "tcc_add_library"
  | addSymbol => "tcc_add_symbol"
  | relocate => "tcc_relocate"
  | getSymbol => "tcc_get_symbol"
  | run => "tcc_run"
  | outputFile => "tcc_output_file"

def ofName? (name : String) : Option Entry :=
  all.find? (·.name = name)

/-- The first entry point, in look-up order, that a module with these exports lacks. -/
def firstMissing? (exports : List Entry) : Option Entry :=
  all.find? (· ∉ exports)

theorem mem_all (e : Entry) : e ∈ all := by
  cases e <;> decide

theorem firstMissing?_eq_none_iff {exports : List Entry} :
    firstMissing? exports = none ↔ ∀ e, e ∈ exports := by
  simp [firstMissing?, mem_all]

end Entry

end EmbeddedC
