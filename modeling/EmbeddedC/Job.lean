import EmbeddedC.Context.Perform

/-!
# One-shot jobs

Whole pipelines over one context: compile a text or a file and write the result, or compile a file
and run its program. A job is a few operations in a row, behind a check of its own.
-/

namespace EmbeddedC

inductive Job where
  | compileSourceTo (source : String) (kind : OutputType) (destination : Path)
  | compileFileTo (path : Path) (kind : OutputType) (destination : Path)
  | runFile (path : Path) (arguments : List String)
  deriving DecidableEq, Repr

namespace Job

private def ensureFileKind (c : Context) (operation : String) (kind : OutputType) :
    Except BindError Unit :=
  c.ensure kind.isFile operation Reason.noFileForm

private def ensureExists (files : FileSystem) (path : Path) : Except BindError Unit :=
  if files.isFile path then .ok () else .error (.io path .noSource)

/-- What must hold before the first operation: the kind has a file form, the source exists. -/
def check (files : FileSystem) (c : Context) : Job → Except BindError Unit
  | compileSourceTo _ kind _ => ensureFileKind c "compile_source_to" kind
  | compileFileTo path kind _ => do
    ensureFileKind c "compile_file_to" kind
    ensureExists files path
  | runFile path _ => ensureExists files path

variable {files : FileSystem} {c : Context}

theorem check_compileSourceTo {source : String} {kind : OutputType} {destination : Path} :
    check files c (.compileSourceTo source kind destination) =
      c.ensure kind.isFile "compile_source_to" Reason.noFileForm := rfl

theorem check_compileFileTo {path : Path} {kind : OutputType} {destination : Path} :
    check files c (.compileFileTo path kind destination) = (do
      c.ensure kind.isFile "compile_file_to" Reason.noFileForm
      if files.isFile path then .ok () else .error (.io path .noSource)) := rfl

theorem check_runFile {path : Path} {arguments : List String} :
    check files c (.runFile path arguments) =
      if files.isFile path then .ok () else .error (.io path .noSource) := rfl

def operations : Job → List Operation
  | compileSourceTo source kind destination =>
    [.setOutputType kind, .compileString source, .outputFile destination]
  | compileFileTo path kind destination =>
    [.setOutputType kind, .addFile path, .outputFile destination]
  | runFile path arguments =>
    [.setOutputType .memory, .addFile path, .relocate, .run arguments]

end Job

variable {σ : Type} (compiler : Compiler σ)

/-- Operations in a row, up to the first that fails. The result is the last one's. -/
def Operation.performAll : List Operation → ContextAction σ Value
  | [] => pure .none
  | [operation] => operation.perform compiler
  | operation :: rest => do
    let _ ← operation.perform compiler
    performAll rest

def Job.perform (job : Job) : ContextAction σ Value := do
  let s ← Action.get
  Action.ofExcept (job.check (s.world.files compiler) s.context)
  Operation.performAll compiler job.operations

end EmbeddedC
