import EmbeddedC.Scripted.Machine

/-!
# Scripted code

What runs when an address is entered: the host's functions, and the few pieces of code that a script
can export. Those call the host through the slots their imports are bound to.
-/

namespace EmbeddedC.Scripted

/-- The count or number that code entered with these arguments finds first. -/
def firstNumber : Arguments → Int32
  | .program arguments => Int32.ofNat arguments.length
  | .numbers numbers => numbers.head?.getD 0
  | .text _ => 0

/-- The host's functions of two numbers, by label. -/
def hostBinary? : String → Option (Int32 → Int32 → Int32)
  | "add" | "sys_add" | "unsafe_add" => some (· + ·)
  | "sub" => some (· - ·)
  | _ => none

def hostResult (label : String) : Arguments → Int32
  | .program arguments => if label = "main" then -Int32.ofNat arguments.length else 0
  | .numbers [a, b] => ((hostBinary? label).map fun f => f a b).getD 0
  | _ => 0

/-- What code returns when it cannot reach what it imports. -/
def unbound : Int32 := -999

namespace Machine

/-- Calls the function of two numbers that a slot holds, with the same number twice. -/
def double (m : Machine) (n : Int32) : Int32 × List Emission :=
  match m.slot "add" with
  | .host label =>
    if (hostBinary? label).isSome then
      (hostResult label (.numbers [n, n]), [.entered (.host label) (.numbers [n, n])])
    else (unbound, [])
  | _ => (unbound, [])

def enterCompiled (m : Machine) (label : String) (arguments : Arguments) :
    Int32 × List Emission × Machine :=
  match label with
  | "main" =>
    match arguments with
    | .program arguments =>
      let last := (arguments.getLast?.map (·.text.utf8ByteSize)).getD 0
      (Int32.ofNat arguments.length * 100 + Int32.ofNat last, [], m)
    | _ => (firstNumber arguments * 100, [], m)
  | "ret" => (m.returnValue, [], m)
  | "foo" =>
    let (result, sent) := m.double (firstNumber arguments)
    (result, sent, m)
  | "bump" =>
    if m.slot "counter" = .host "counter" then
      let counter := m.counter + firstNumber arguments
      (counter, [], { m with counter })
    else (unbound, [], m)
  | "greet" =>
    let greeting := .upToNul (Text.Utf8.encode greetingText)
    let (result, sent) := m.double (firstNumber arguments)
    (result, .entered (m.slot "hello") (.text greeting) :: sent, m)
  | _ => (0, [], m)

def enter (address : Address) (arguments : Arguments) (m : Machine) :
    Int32 × List Emission × Machine :=
  match address with
  | .host label => (hostResult label arguments, [], m)
  | .compiled label => m.enterCompiled label arguments
  | .word _ => (0, [], m)

/-- Enters `main` of a state that has not been relocated. -/
def run (m : Machine) (handle : Handle) (arguments : List CText) :
    Answer × List Emission × Machine :=
  let s := m.state handle
  if s.relocated then
    ({ status := -1 }, m.diagnose handle "tcc: error: tcc_run on an already relocated state", m)
  else
    let main := s.lookup "main"
    if main.isNull then
      ({ status := -1 }, m.diagnose handle "tcc: error: undefined symbol 'main'", m)
    else
      let (status, sent, m) := m.enter main (.program arguments)
      ({ status }, .entered main (.program arguments) :: sent, m)

def missingLibrary : String := "missing"

def reservedName : String := "__reserved"

/-- A request on a state, as it is answered when no status is forced on its entry point. -/
def answer (m : Machine) (handle : Handle) : Request → Answer × List Emission × Machine
  | .setErrorFunc => ({}, [], m.setState handle { m.state handle with listening := true })
  | .delete => ({}, [], m.setState handle { m.state handle with alive := false })
  | .configure _ => ({}, [], m)
  | .setOutputType code =>
    ({}, [], m.setState handle { m.state handle with outputType? := some code })
  | .addLibrary name =>
    if name.text = missingLibrary then
      ({ status := -1 }, m.diagnose handle "tcc: error: library 'missing' not found", m)
    else ({}, [], m)
  | .compile (.text source) => m.compile handle (SourceUnit.text source).name source.text
  | .compile (.file path) => m.compileFile handle path
  | .addSymbol name address =>
    if name.text = reservedName then ({ status := -1 }, [], m)
    else
      let s := m.state handle
      ({}, [], m.setState handle { s with injected := s.injected ++ [(name.text, address)] })
  | .relocate target => m.relocate handle target
  | .getSymbol name => ({ address := (m.state handle).lookup name.text }, [], m)
  | .run arguments => m.run handle arguments
  | .outputFile path => m.outputFile handle path

/-- Whether a forced status stands for the whole call. Entry points that return nothing cannot be
forced. -/
def obeysForce : Entry → Bool
  | .delete | .setErrorFunc | .setLibPath | .setOptions | .defineSymbol | .undefineSymbol => false
  | _ => true

def call (handle : Handle) (request : Request) (m : Machine) :
    Answer × List Emission × Machine :=
  match m.forcedStatus? request.entry with
  | some status =>
    if obeysForce request.entry then ({ status }, [], m) else m.answer handle request
  | none => m.answer handle request

end Machine

def compiler : Compiler Machine where
  files := Machine.files
  create := Machine.create
  call := Machine.call
  enter := Machine.enter

end EmbeddedC.Scripted
