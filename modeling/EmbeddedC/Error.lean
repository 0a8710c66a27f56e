import EmbeddedC.Abi
import EmbeddedC.Entry
import EmbeddedC.Path
import EmbeddedC.Stage

/-!
# Errors

What can go wrong, by cause, with the message, code and advice that reports show. An error that
wraps another speaks with its words.
-/

namespace EmbeddedC

/-- Why a file could not be read. -/
inductive FileFault where
  | notFound
  | noSource
  | isADirectory
  | notADirectory
  | notText
  | nulInPath
  | nameTooLong
  deriving DecidableEq, Repr

namespace FileFault

def text : FileFault → String
  | notFound => "No such file or directory (os error 2)"
  | noSource => "source file not found"
  | isADirectory => "Is a directory (os error 21)"
  | notADirectory => "Not a directory (os error 20)"
  | notText => "stream did not contain valid UTF-8"
  | nulInPath => "file name contained an unexpected NUL byte"
  | nameTooLong => "File name too long (os error 36)"

end FileFault

/-- Failures of choosing a binary interface or loading a compiler module. -/
inductive LoadError where
  | unsupportedPointerWidth (bits : Nat)
  | moduleNotFound (path : Path)
  | loadFailed (path : Path)
  | missingEntry (entry : Entry)
  | abiMismatch (requested : Abi) (hostBits : Nat)
  deriving DecidableEq, Repr

namespace LoadError

/-- The loader's own words are not known here; they follow the message of `loadFailed`. -/
def message : LoadError → String
  | unsupportedPointerWidth bits => "Unsupported pointer width: " ++ toString bits ++ " bits"
  | moduleNotFound path => "Native compiler module not found at " ++ path.display
  | loadFailed path => "Failed to load native compiler module " ++ path.display ++ ": <loader text>"
  | missingEntry entry => "Native compiler module is missing entry point `" ++ entry.name ++ "`"
  | abiMismatch requested hostBits =>
    "Entry table for " ++ requested.text ++ " cannot be driven from a " ++ toString hostBits ++
      "-bit process"

def code : LoadError → String
  | unsupportedPointerWidth _ => "TCC-CONFIG-001"
  | moduleNotFound _ => "TCC-CONFIG-002"
  | loadFailed _ => "TCC-CONFIG-003"
  | missingEntry _ => "TCC-CONFIG-004"
  | abiMismatch _ _ => "TCC-CONFIG-005"

def help? : LoadError → Option String
  | unsupportedPointerWidth _ => some "Only 32-bit and 64-bit host processes can load libtcc"
  | moduleNotFound _ =>
    some "Place libtcc under <root>/x64 or <root>/x86, or set TCCBIND_LIB to its path"
  | missingEntry _ => some "The module must export the libtcc 0.9.27 API"
  | _ => none

end LoadError

/-- The interface for a pointer width. -/
def Abi.select (bits : Nat) : Except LoadError Abi :=
  match Abi.ofWidth? bits with
  | some abi => .ok abi
  | none => .error (.unsupportedPointerWidth bits)

/-- Failures of reading a config file. -/
inductive ConfigError where
  | unreadable (path : Path) (cause : FileFault)
  | malformed (path : Path)
  deriving DecidableEq, Repr

namespace ConfigError

def message : ConfigError → String
  | unreadable path _ => "Failed to read config file " ++ path.display
  | malformed path => "Invalid config file " ++ path.display

def code : ConfigError → String
  | unreadable _ _ => "TCC-CONFIG-020"
  | malformed _ => "TCC-CONFIG-021"

def help? : ConfigError → Option String
  | unreadable _ _ => none
  | malformed _ => some "See the [native] and [compile] tables accepted in tccbind.toml"

end ConfigError

/-- Refusals of a symbol injection. -/
inductive InjectError where
  | isSealed (name : String) (stage : Stage)
  | invalidName (name : String)
  | conventionMismatch (name : String) (abi : Abi) (expected found : Convention)
  | rejected (name : String) (status : Int32)
  deriving DecidableEq, Repr

namespace InjectError

def message : InjectError → String
  | isSealed name stage =>
    "Cannot inject `" ++ name ++ "`: the context is already " ++ stage.text
  | invalidName name => Text.quoted name ++ " is not a valid symbol name"
  | conventionMismatch name abi expected found =>
    "`" ++ name ++ "` is an " ++ found.spelling ++ " function but the context (" ++ abi.text ++
      ") calls " ++ expected.spelling
  | rejected name status =>
    "libtcc rejected symbol `" ++ name ++ "` with status " ++ toString status

def code : InjectError → String
  | isSealed _ _ => "TCC-INJECT-001"
  | invalidName _ => "TCC-INJECT-002"
  | conventionMismatch _ _ _ _ => "TCC-INJECT-003"
  | rejected _ _ => "TCC-INJECT-004"

def help? : InjectError → Option String
  | isSealed _ _ => some "Symbols must be injected before relocation or file emission"
  | invalidName _ => some "Symbol names must be non-empty and free of NUL bytes"
  | _ => none

end InjectError

/-- Failures of contexts and toolchains. -/
inductive BindError where
  | load (error : LoadError)
  | config (error : ConfigError)
  | createFailed
  | rejected (entry argument : String) (status : Int32)
  | compile (unit : String) (status : Int32)
  | injection (error : InjectError)
  | relocation (status : Int32)
  | missingEntryPoint (name : String)
  | emit (path : Path) (status : Int32)
  | outOfOrder (operation : String) (stage : Stage) (reason : String)
  | invalidArgument (what reason : String)
  | io (path : Path) (cause : FileFault)
  deriving DecidableEq, Repr

/-- Broad categories of failure, for callers that only ask whether they can recover. -/
inductive Category where
  | configuration
  | compile
  | injection
  | relocation
  | emission
  | postcondition
  | invalidArgument
  | io
  deriving DecidableEq, Repr

namespace BindError

def category : BindError → Category
  | load _ | config _ | createFailed | rejected _ _ _ => .configuration
  | compile _ _ => .compile
  | injection _ => .injection
  | relocation _ | missingEntryPoint _ => .relocation
  | emit _ _ => .emission
  | outOfOrder _ _ _ => .postcondition
  | invalidArgument _ _ => .invalidArgument
  | io _ _ => .io

def message : BindError → String
  | load error => error.message
  | config error => error.message
  | createFailed => "libtcc could not create a compilation state"
  | rejected entry argument status =>
    "`" ++ entry ++ "` rejected " ++ Text.quoted argument ++ " with status " ++ toString status
  | compile unit status =>
    "Compilation of " ++ unit ++ " failed with status " ++ toString status
  | injection error => error.message
  | relocation status => "Relocation failed with status " ++ toString status
  | missingEntryPoint name => "The relocated program defines no `" ++ name ++ "`"
  | emit path status => "Writing " ++ path.display ++ " failed with status " ++ toString status
  | outOfOrder operation stage reason =>
    "`" ++ operation ++ "` is not allowed while the context is " ++ stage.text ++ ": " ++ reason
  | invalidArgument what reason => what ++ " cannot be passed to libtcc: " ++ reason
  | io path _ => "Cannot read source file " ++ path.display

def code : BindError → String
  | load error => error.code
  | config error => error.code
  | createFailed => "TCC-CONFIG-010"
  | rejected _ _ _ => "TCC-CONFIG-011"
  | compile _ _ => "TCC-COMPILE-001"
  | injection error => error.code
  | relocation _ => "TCC-RELOC-001"
  | missingEntryPoint _ => "TCC-RUN-001"
  | emit _ _ => "TCC-EMIT-001"
  | outOfOrder _ _ _ => "TCC-ORDER-001"
  | invalidArgument _ _ => "TCC-ARG-001"
  | io _ _ => "TCC-IO-001"

def help? : BindError → Option String
  | load error => error.help?
  | config error => error.help?
  | createFailed => some "tcc_new returned NULL; the process is out of memory"
  | compile _ _ => some "Compiler messages were delivered to the context's error sink"
  | injection error => error.help?
  | relocation _ =>
    some "Unresolved symbols are reported to the error sink; recompile before relocating again"
  | missingEntryPoint _ =>
    some "Define `int main(int argc, char **argv)` in one of the compiled units"
  | _ => none

end BindError

end EmbeddedC
