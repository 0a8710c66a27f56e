import EmbeddedC.Address
import EmbeddedC.CText
import EmbeddedC.Entry
import EmbeddedC.FileSystem

/-!
# The foreign compiler

The other side of the boundary, as a machine: it creates states, answers requests made on them, and
runs code. While it does, it may send messages through a state's error function and enter further
code. Nothing else is assumed of it.
-/

namespace EmbeddedC

/-- A compilation state: states are numbered in order of creation. -/
abbrev Handle := Nat

/-- A setting of a state. Those that name a directory to search report a status. -/
inductive Setting where
  | libPath (path : CText)
  | options (options : CText)
  | includePath (path : CText)
  | sysIncludePath (path : CText)
  | libraryPath (path : CText)
  | define (name : CText) (value? : Option CText)
  | undefine (name : CText)
  deriving DecidableEq, Repr

namespace Setting

def entry : Setting → Entry
  | libPath _ => .setLibPath
  | options _ => .setOptions
  | includePath _ => .addIncludePath
  | sysIncludePath _ => .addSysIncludePath
  | libraryPath _ => .addLibraryPath
  | define _ _ => .defineSymbol
  | undefine _ => .undefineSymbol

/-- The text that names the setting. -/
def argument : Setting → CText
  | libPath t | options t | includePath t | sysIncludePath t | libraryPath t | define t _
  | undefine t => t

def reportsStatus : Setting → Bool
  | includePath _ | sysIncludePath _ | libraryPath _ => true
  | _ => false

end Setting

/-- What is handed over to be compiled. -/
inductive SourceUnit where
  | text (source : CText)
  | file (path : CText)
  deriving DecidableEq, Repr

namespace SourceUnit

def entry : SourceUnit → Entry
  | text _ => .compileString
  | file _ => .addFile

/-- The name that messages give the unit. -/
def name : SourceUnit → String
  | text _ => "<string>"
  | file path => path.text

end SourceUnit

/-- Where relocation puts code: nowhere, to learn its size; in memory of the compiler's own; or in
memory that the host hands over. -/
inductive Target where
  | size
  | auto
  | memory (memory : HostMemory := default)
  deriving DecidableEq, Repr

inductive Request where
  | setErrorFunc
  | delete
  | configure (setting : Setting)
  | setOutputType (code : Int32)
  | addLibrary (name : CText)
  | compile (unit : SourceUnit)
  | addSymbol (name : CText) (address : Address)
  | relocate (target : Target)
  | getSymbol (name : CText)
  | run (arguments : List CText)
  | outputFile (path : CText)
  deriving DecidableEq, Repr

def Request.entry : Request → Entry
  | setErrorFunc => .setErrorFunc
  | delete => .delete
  | configure setting => setting.entry
  | setOutputType _ => .setOutputType
  | addLibrary _ => .addLibrary
  | compile unit => unit.entry
  | addSymbol _ _ => .addSymbol
  | relocate _ => .relocate
  | getSymbol _ => .getSymbol
  | run _ => .run
  | outputFile _ => .outputFile

/-- What a request returns. Each entry point uses the status, the address, or neither. -/
structure Answer where
  status : Int32 := 0
  address : Address := .null
  deriving DecidableEq, Repr, Inhabited

/-- What code is entered with: a program's argument vector, numbers, or a text. -/
inductive Arguments where
  | program (arguments : List CText)
  | numbers (numbers : List Int32)
  | text (text : CText)
  deriving DecidableEq, Repr

/-- Where a program finds its arguments: a pointer to each text, and a null one after the last. -/
structure ArgumentVector where
  pointers : List (Option CText)
  deriving DecidableEq, Repr

namespace ArgumentVector

def ofTexts (texts : List CText) : ArgumentVector :=
  ⟨texts.map some ++ [none]⟩

/-- How many pointers there are, the null one aside, as the number that goes with the vector. -/
def count (v : ArgumentVector) : Int32 :=
  Int32.ofNat (v.pointers.length - 1)

/-- What a program reads that trusts the count. -/
def texts (v : ArgumentVector) : List CText :=
  (v.pointers.take v.count.toInt.toNat).filterMap id

/-- Whether there is a null pointer where the count ends. -/
def isTerminated (v : ArgumentVector) : Bool :=
  v.pointers[v.count.toInt.toNat]? = some none

end ArgumentVector

def Arguments.vector? : Arguments → Option ArgumentVector
  | program arguments => some (.ofTexts arguments)
  | numbers _ | text _ => none

/-- What happens on the other side before it returns. -/
inductive Emission where
  | message (state : Handle) (text : CText)
  | entered (address : Address) (arguments : Arguments)
  deriving DecidableEq, Repr

structure Compiler (σ : Type) where
  files : σ → FileSystem
  /-- Whether a state was created. -/
  create : σ → Bool × σ
  call : Handle → Request → σ → Answer × List Emission × σ
  enter : Address → Arguments → σ → Int32 × List Emission × σ

end EmbeddedC
