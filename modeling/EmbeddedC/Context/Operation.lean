import EmbeddedC.Context

/-!
# Operations

The single steps a context offers. Each is checked first, against the context alone: whether it is in
order at this stage, and whether its arguments can cross the boundary. A check that fails changes
nothing and reaches nothing; one that passes leaves a task for the foreign side.
-/

namespace EmbeddedC

inductive Operation where
  | setErrorSink (sink : Sink)
  | clearErrorSink
  | setBeforeCompile (hook : Hook)
  | setLibPath (path : Path)
  | setOptions (options : String)
  | addIncludePath (path : Path)
  | addSysIncludePath (path : Path)
  | addLibraryPath (path : Path)
  | addLibrary (name : String)
  | defineSymbol (name : String) (value? : Option String)
  | undefineSymbol (name : String)
  | setOutputType (type : OutputType)
  | compileString (source : String)
  | addFile (path : Path)
  | injectFunction (name : String) (convention : Convention) (address : Address)
  | injectData (name : String) (address : Address)
  /-- An address of which nothing is known but what the host says. -/
  | injectRaw (name : String) (kind : SymbolKind) (address : Address)
  | relocate
  | relocationSize
  | relocateInto (memory : HostMemory := default)
  | getSymbol (name : String)
  /-- Looks up a symbol as a value of a type of `size` bytes, which must be a pointer's. -/
  | resolveFunction (typeName : String) (size : Nat) (name : String)
  | run (arguments : List String)
  | outputFile (path : Path)
  | dispose

/-- What a checked operation is to do, with arguments as they cross the boundary. -/
inductive Task where
  | installSink (sink? : Option Sink)
  | installHook (hook : Hook)
  | configure (setting : Setting)
  | addLibrary (name : CText)
  | chooseType (type : OutputType)
  /-- The type that was asked for is fixed already. -/
  | keepType
  | compile (unit : SourceUnit)
  | inject (name : CText) (symbol : InjectedSymbol)
  | relocate (target : Target)
  | lookUp (name : CText)
  | run (arguments : List CText)
  | outputFile (path : CText)
  | dispose

namespace Reason

def released : String := "the foreign state has been released"
def alreadyDisposed : String := "the context was already disposed"
def finished : String := "the context is already relocated or emitted"
def typeFixed : String :=
  "the output type is fixed once compilation or linking has started"
def nothingCompiled : String := "nothing has been compiled"
def relocationNeedsMemory : String := "relocation requires the memory output type"
def relocationFailed : String := "a failed relocation must be followed by a successful compile"
def notRelocated : String := "symbols resolve only after a successful relocation"
def runNeedsMemory : String := "only memory output can be run"
def runNeedsRelocation : String := "the program must be relocated first"
def attempted : String := "the context has been relocated"
def noFileForm : String := "the memory output type has no file form"
def interiorNul : String := "it contains an interior NUL byte"
def notPointerSized : String := "it is not a function pointer type"
def tooManyArguments : String := "argc does not fit in a C int"

end Reason

/-- A text as it crosses the boundary. -/
def boundaryText (what value : String) : Except BindError CText :=
  match CText.ofString? value with
  | some t => .ok t
  | none => .error (.invalidArgument what Reason.interiorNul)

/-- A path as it crosses the boundary: byte for byte. -/
def boundaryPath (path : Path) : Except BindError CText :=
  match CText.ofBytes? path.bytes with
  | some t => .ok t
  | none => .error (.invalidArgument ("path " ++ path.display) Reason.interiorNul)

/-- The largest argument count that fits the boundary. -/
def maxArguments : Nat := 0x7FFFFFFF

def boundaryArgumentsFrom : Nat → List String → Except BindError (List CText)
  | _, [] => .ok []
  | i, a :: rest => do
    let t ← boundaryText ("argument " ++ toString i) a
    let ts ← boundaryArgumentsFrom (i + 1) rest
    pure (t :: ts)

def boundaryArguments (arguments : List String) : Except BindError (List CText) := do
  let ts ← boundaryArgumentsFrom 0 arguments
  if ts.length > maxArguments then
    throw (.invalidArgument (toString ts.length ++ " program arguments") Reason.tooManyArguments)
  else pure ts

namespace Context

variable (c : Context)

/-- A refusal that names the stage the context is in. -/
def violation (operation reason : String) : BindError :=
  .outOfOrder operation c.stage reason

def ensure (holds : Bool) (operation reason : String) : Except BindError Unit :=
  if holds then .ok () else .error (c.violation operation reason)

def ensureLive (operation : String) : Except BindError Unit :=
  c.ensure (!c.stage.isDisposed) operation Reason.released

def ensureOpen (operation : String) : Except BindError Unit := do
  c.ensureLive operation
  c.ensure c.stage.isOpen operation Reason.finished

def ensureInjectable (name : String) : Except BindError Unit := do
  c.ensureLive "inject"
  if c.stage.isSealed then throw (.injection (.isSealed name c.stage))
  else if !isSymbolName name then throw (.injection (.invalidName name))
  else pure ()

def ensureRelocatable (operation : String) : Except BindError Unit := do
  c.ensureLive operation
  c.ensure (c.stage ≠ .created ∧ c.stage ≠ .configured) operation Reason.nothingCompiled
  c.ensure (c.stage = .compiled) operation Reason.finished
  c.ensure (c.outputType = .memory) operation Reason.relocationNeedsMemory
  c.ensure (!c.relocationFailed) operation Reason.relocationFailed

/-- A host function must follow a convention that the context's compiler can call. -/
def ensureCallable (name : String) (convention : Convention) : Except BindError Unit :=
  let expected := c.abi.convention
  if convention.interchangeable expected then .ok ()
  else .error (.injection (.conventionMismatch name c.abi expected convention))

def checkLookUp (name : String) : Except BindError Task := do
  c.ensureLive "get_symbol"
  c.ensure c.stage.isRelocated "get_symbol" Reason.notRelocated
  pure (.lookUp (← boundaryText "symbol name" name))

def checkSetting (operation : String) (setting : Except BindError Setting) :
    Except BindError Task := do
  c.ensureOpen operation
  pure (.configure (← setting))

end Context

namespace Operation

/-- The task of injecting a symbol. -/
def injection (symbol : InjectedSymbol) : Except BindError Task := do
  pure (.inject (← boundaryText "symbol name" symbol.name) symbol)

/-- Whether an operation may go on, and with what. -/
def check (c : Context) : Operation → Except BindError Task
  | setErrorSink sink => do
    c.ensureLive "set_error_sink"
    pure (.installSink (some sink))
  | clearErrorSink => do
    c.ensureLive "clear_error_sink"
    pure (.installSink none)
  | setBeforeCompile hook => do
    c.ensureLive "set_before_compile"
    pure (.installHook hook)
  | setLibPath path => c.checkSetting "set_lib_path" (.libPath <$> boundaryPath path)
  | setOptions options =>
    c.checkSetting "set_options" (.options <$> boundaryText "compiler options" options)
  | addIncludePath path => c.checkSetting "add_include_path" (.includePath <$> boundaryPath path)
  | addSysIncludePath path =>
    c.checkSetting "add_sys_include_path" (.sysIncludePath <$> boundaryPath path)
  | addLibraryPath path => c.checkSetting "add_library_path" (.libraryPath <$> boundaryPath path)
  | addLibrary name => do
    c.ensureOpen "add_library"
    pure (.addLibrary (← boundaryText "library name" name))
  | defineSymbol name value? =>
    c.checkSetting "define_symbol" do
      let name ← boundaryText "macro name" name
      pure (.define name (← value?.mapM (boundaryText "macro value")))
  | undefineSymbol name =>
    c.checkSetting "undefine_symbol" (.undefine <$> boundaryText "macro name" name)
  | setOutputType type => do
    c.ensureOpen "set_output_type"
    if c.typeFixed then
      c.ensure (type = c.outputType) "set_output_type" Reason.typeFixed
      pure .keepType
    else pure (.chooseType type)
  | compileString source => do
    c.ensureOpen "compile_string"
    pure (.compile (.text (← boundaryText "source text" source)))
  | addFile path => do
    c.ensureOpen "add_file"
    pure (.compile (.file (← boundaryPath path)))
  | injectFunction name convention address => do
    c.ensureInjectable name
    c.ensureCallable name convention
    injection ⟨name, .function, address⟩
  | injectData name address => do
    c.ensureInjectable name
    injection ⟨name, .data, address⟩
  | injectRaw name kind address => do
    c.ensureInjectable name
    injection ⟨name, kind, address⟩
  | relocate => do
    c.ensureRelocatable "relocate"
    pure (.relocate .auto)
  | relocationSize => do
    c.ensureRelocatable "relocation_size"
    pure (.relocate .size)
  | relocateInto memory => do
    c.ensureRelocatable "relocate_into"
    pure (.relocate (.memory memory))
  | getSymbol name => c.checkLookUp name
  | resolveFunction typeName size name =>
    if size = pointerBits / 8 then c.checkLookUp name
    else throw (.invalidArgument ("type " ++ typeName) Reason.notPointerSized)
  | run arguments => do
    c.ensureLive "run"
    c.ensure (c.outputType = .memory) "run" Reason.runNeedsMemory
    c.ensure c.stage.isRelocated "run" Reason.runNeedsRelocation
    pure (.run (← boundaryArguments arguments))
  | outputFile path => do
    c.ensureLive "output_file"
    c.ensure (!c.relocateAttempted) "output_file" Reason.attempted
    c.ensure c.outputType.isFile "output_file" Reason.noFileForm
    c.ensure (c.stage = .compiled ∨ c.stage = .finalized .emitted) "output_file"
      Reason.nothingCompiled
    pure (.outputFile (← boundaryPath path))
  | dispose => do
    c.ensure (!c.stage.isDisposed) "dispose" Reason.alreadyDisposed
    pure .dispose

end Operation

end EmbeddedC
