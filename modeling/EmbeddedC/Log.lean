import EmbeddedC.Abi
import EmbeddedC.OutputType
import EmbeddedC.Path
import EmbeddedC.Stage
import EmbeddedC.Symbols

/-!
# Log records

What is logged along the way, by cause. A record's level, its source and its text follow from the
cause; only the spelling of addresses is left to whoever shows it.
-/

namespace EmbeddedC

inductive Level where
  | error
  | warn
  | info
  | debug
  | trace
  deriving DecidableEq, Repr

namespace Level

/-- One for the most severe level, five for the least. -/
def rank : Level → Nat
  | error => 1
  | warn => 2
  | info => 3
  | debug => 4
  | trace => 5

def text : Level → String
  | error => "ERROR"
  | warn => "WARN"
  | info => "INFO"
  | debug => "DEBUG"
  | trace => "TRACE"

end Level

/-- How much of the log is shown: all records up to a rank. -/
structure Verbosity where
  rank : Nat
  deriving DecidableEq, Repr

def Verbosity.off : Verbosity := ⟨0⟩

def Verbosity.upTo (l : Level) : Verbosity := ⟨l.rank⟩

def Verbosity.shows (v : Verbosity) (l : Level) : Bool :=
  l.rank ≤ v.rank

inductive LogRecord where
  | loadingTable (abi : Abi) (path : Path)
  | loadedTable (abi : Abi) (path : Path)
  | sinkPanicked (message : String)
  | loadedConfig (path : Path)
  | createdContext (abi : Abi) (origin : Path)
  | releasedContext (abi : Abi)
  | stageChanged (before after : Stage)
  | rejected (entry argument : String) (status : Int32)
  | typeFixed (type : OutputType)
  | compileFailed (unit : String) (status : Int32)
  | compiled (unit : String)
  | injected (again : Bool) (symbol : InjectedSymbol)
  | relocationFailed (status : Int32)
  | relocated (symbols : Nat)
  | relocatedInto (memory : HostMemory)
  | runningMain (count : Nat)
  | noMain
  | returned (status : Int32)
  | emitFailed (path : Path) (status : Int32)
  | wrote (type : OutputType) (path : Path)
  | diagnostic (message : String)
  | usingToolchain (description : String)
  | exited (file : Path) (status : Int32)
  deriving DecidableEq, Repr

namespace LogRecord

def level : LogRecord → Level
  | sinkPanicked _ => .error
  | rejected _ _ _ | compileFailed _ _ | relocationFailed _ | noMain | emitFailed _ _ => .warn
  | loadedTable _ _ | wrote _ _ | exited _ _ => .info
  | stageChanged _ _ => .trace
  | _ => .debug

def source : LogRecord → String
  | loadingTable _ _ | loadedTable _ _ => "tccbind_native::entries"
  | sinkPanicked _ => "tccbind_native::relay"
  | loadedConfig _ => "tccbind::config"
  | diagnostic _ => "tccbind::diagnostics"
  | usingToolchain _ => "tccbind::commands"
  | exited _ _ => "tccbind::commands::run"
  | _ => "tccbind::context"

/-- The memory a caller relocates into is its own, and its address says nothing. -/
def callerMemory : String := "<memory>"

private def status (code : Int32) : String :=
  "(status " ++ toString code ++ ")"

def text (addressText : Address → String) : LogRecord → String
  | loadingTable abi path =>
    "Loading libtcc entry table (" ++ abi.text ++ ") from " ++ path.display
  | loadedTable abi path => "Loaded libtcc entry table (" ++ abi.text ++ ") from " ++ path.display
  | sinkPanicked message => "Diagnostic sink panicked; dropped message: " ++ message
  | loadedConfig path => "Loaded config from " ++ path.display
  | createdContext abi origin =>
    "Created compilation context (" ++ abi.text ++ ") from " ++ origin.display
  | releasedContext abi => "Released compilation context (" ++ abi.text ++ ")"
  | stageChanged before after => "Context stage " ++ before.text ++ " -> " ++ after.text
  | rejected entry argument code => entry ++ " rejected " ++ argument ++ " " ++ status code
  | typeFixed type => "Output type fixed to " ++ type.text
  | compileFailed unit code => "Compilation of " ++ unit ++ " failed " ++ status code
  | compiled unit => "Compiled " ++ unit
  | injected again symbol =>
    (if again then "Re-injected " else "Injected ") ++ symbol.kind.label ++ " symbol `" ++
      symbol.name ++ "` at " ++ addressText symbol.address
  | relocationFailed code => "Relocation failed " ++ status code
  | relocated symbols =>
    "Relocated into compiler-owned memory (" ++ toString symbols ++ " injected symbols)"
  | relocatedInto _ => "Relocated into caller memory at " ++ callerMemory
  | runningMain count => "Running main with " ++ toString count ++ " arguments"
  | noMain => "The relocated program defines no main"
  | returned code => "Program returned " ++ toString code
  | emitFailed path code => "Writing " ++ path.display ++ " failed " ++ status code
  | wrote type path => "Wrote " ++ type.text ++ " to " ++ path.display
  | diagnostic message => message
  | usingToolchain description => "Using " ++ description
  | exited file code => file.display ++ " exited with status " ++ toString code

end LogRecord

end EmbeddedC
