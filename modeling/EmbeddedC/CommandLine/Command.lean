import EmbeddedC.CommandLine.Define
import EmbeddedC.CommandLine.Invocation
import EmbeddedC.Toolchain

/-!
# Commands

What the commands do with a context of their own: compile a file and run it, compile a file and write
the result, or inject two host functions into a small program and call it. Whatever happens, the
context is released in the end.
-/

namespace EmbeddedC.CommandLine

/-- The program that the demo compiles. -/
def demoSource : String :=
  "\nint add(int a, int b);\nvoid hello(const char *msg);\n\nint foo(int n)\n\x7b\n" ++
    "    hello(\"Hello from compiled code\");\n    return add(n, n);\n\x7d\n"

/-- What the demo calls its program with. -/
def demoNumber : Int32 := 32

/-- The operations that the flags ask for, after the sink. A bad definition comes to light in its
turn. -/
def Flags.operations (f : Flags) : List (Except CommandError Operation) :=
  f.includeDirs.map (fun dir => .ok (.addIncludePath dir)) ++
    f.libraryDirs.map (fun dir => .ok (.addLibraryPath dir)) ++
    f.defines.map (fun raw => (Define.parse raw).map fun d => .defineSymbol d.name d.value?) ++
    f.options?.toList.map (fun options => .ok (.setOptions options))

/-- Messages go to the command's own error stream. -/
def messageSink : Sink := { tag := "stderr" }

variable {σ : Type} (compiler : Compiler σ)

/-- What a command can do with its context. -/
abbrev CommandAction (σ α : Type) : Type := Action Event (Live σ) CommandError α

namespace CommandAction

def operation (o : Operation) : CommandAction σ Value :=
  (o.perform compiler).mapError .bind

def job (j : Job) : CommandAction σ Value :=
  (j.perform compiler).mapError .bind

def log (record : LogRecord) : CommandAction σ Unit :=
  Action.emit [.logged record]

def print (line : String) : CommandAction σ Unit :=
  Action.emit [.printed line]

def operations : List (Except CommandError Operation) → CommandAction σ Unit
  | [] => pure ()
  | o :: rest => do
    let _ ← operation compiler (← Action.ofExcept o)
    operations rest

/-- Applies the flags to a fresh context. -/
def applyFlags (f : Flags) : CommandAction σ Unit :=
  operations compiler (.ok (.setErrorSink messageSink) :: f.operations)

/-- Links the libraries that the flags name. Called once the output type is chosen. -/
def link (f : Flags) : CommandAction σ Unit :=
  operations compiler (f.libraries.map fun name => .ok (.addLibrary name))

def run (f : Flags) (file : Path) (arguments : List String) : CommandAction σ Int32 := do
  applyFlags compiler f
  let _ ← operation compiler (.setOutputType .memory)
  link compiler f
  match ← job compiler (.runFile file (file.display :: arguments)) with
  | .status status =>
    log (.exited file status)
    pure status
  | _ => pure 0

def build (f : Flags) (file output : Path) (type : OutputType) : CommandAction σ Unit := do
  applyFlags compiler f
  let _ ← operation compiler (.setOutputType type)
  link compiler f
  let _ ← job compiler (.compileFileTo file type output)
  print ("Wrote " ++ type.text ++ " " ++ output.display)

def demo (f : Flags) : CommandAction σ Unit := do
  applyFlags compiler f
  let _ ← operation compiler (.setOutputType .memory)
  let _ ← operation compiler (.compileString demoSource)
  let _ ← operation compiler (.injectFunction "add" .cdecl (.host "add"))
  let _ ← operation compiler (.injectFunction "hello" .cdecl (.host "hello"))
  let _ ← operation compiler .relocate
  match ← operation compiler
      (.resolveFunction "extern \"C\" fn(i32) -> i32" (pointerBits / 8) "foo") with
  | .address (some foo) =>
    let result ← (ContextAction.enter compiler foo (.numbers [demoNumber])).mapError .bind
    print ("foo(" ++ toString demoNumber ++ ") = " ++ toString result)
  | _ => Action.fail (.missingSymbol "foo")

end CommandAction

/-- A session on a new context, which is released at its end. -/
def withContext {α : Type} (t : Toolchain) (x : CommandAction σ α) :
    Action Event (World σ) CommandError α := do
  let c ← (t.openContext compiler).mapError .bind
  fun w =>
    let o := x ⟨c, w⟩
    let released := ContextAction.release compiler o.state
    ⟨o.result, released.state.world, o.events ++ released.events⟩

/-- The config file that the flags name, or the one that is found. -/
def findConfig (files : FileSystem) (around : Surroundings) (f : Flags) :
    Except ConfigError Config × List LogRecord :=
  match f.config? with
  | some path => Config.ofFileIn files around path
  | none => Config.discover files around

def loadToolchainWith (loader : EntryTable.Loader) (around : Surroundings) (f : Flags) :
    Action Event (World σ) CommandError Toolchain := fun w =>
  let files := w.files compiler
  let (toolchain, log) := Toolchain.loadFoundWith loader files around (findConfig files around f)
  match toolchain with
  | .error e => ⟨.error (.bind e), w, log.map .logged⟩
  | .ok t => ⟨.ok t, w, log.map .logged ++ [.logged (.usingToolchain t.outline.line)]⟩

def loadToolchain (around : Surroundings) (f : Flags) :
    Action Event (World σ) CommandError Toolchain := fun w =>
  loadToolchainWith compiler (EntryTable.openModule? (w.files compiler)) around f w

/-- A command from start to end. Its result is the status to exit with. -/
def Invocation.perform (around : Surroundings) (i : Invocation) :
    Action Event (World σ) CommandError Int32 := do
  let t ← loadToolchain compiler around i.flags
  match i.command with
  | .run file arguments => withContext compiler t (CommandAction.run compiler i.flags file arguments)
  | .build file output? kind =>
    let output ← Action.ofExcept (match output? with
      | some path => .ok path
      | none => defaultOutput file kind)
    withContext compiler t (CommandAction.build compiler i.flags file output kind.outputType)
    pure 0
  | .demo =>
    withContext compiler t (CommandAction.demo compiler i.flags)
    pure 0

end EmbeddedC.CommandLine
