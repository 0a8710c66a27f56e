import EmbeddedC.Foreign
import EmbeddedC.Scripted.Directive

/-!
# The scripted compiler

A compiler whose sources are scripts. It keeps the states it has created, in order; the slots that
relocation binds imported names to and the number a returning program returns are shared by all of
them. Any entry point can be made to answer a status of its own and do nothing else. Names and
sources are texts here: bytes that are none are replaced as they arrive. Paths are kept as they are.
-/

namespace EmbeddedC.Scripted

structure State where
  alive : Bool := true
  /-- Whether an error function has been registered. -/
  listening : Bool := false
  outputType? : Option Int32 := none
  relocated : Bool := false
  units : Nat := 0
  /-- Exported symbols in order. -/
  defined : List (String × Address) := []
  imports : List String := []
  /-- Symbols that were added, in order. -/
  injected : List (String × Address) := []
  deriving DecidableEq, Repr, Inhabited

/-- The latest added symbol of a name, else the first exported one. -/
def State.lookup (s : State) (name : String) : Address :=
  ((s.injected.reverse.lookup name).or (s.defined.lookup name)).getD .null

structure Machine where
  files : FileSystem
  states : List State := []
  forced : List (Entry × Int32) := []
  /-- What imported names are bound to. -/
  slots : List (String × Address) := []
  returnValue : Int32 := 0
  counter : Int32 := 0
  /-- Whether the unit that greets the world is compiled as the program it is. -/
  greeting : Bool := false

namespace Machine

def forcedStatus? (m : Machine) (entry : Entry) : Option Int32 :=
  m.forced.lookup entry

def force (m : Machine) (entry : Entry) (status? : Option Int32) : Machine :=
  let others := m.forced.filter (·.1 ≠ entry)
  { m with forced := match status? with
      | some status => (entry, status) :: others
      | none => others }

def slot (m : Machine) (name : String) : Address :=
  (m.slots.lookup name).getD .null

def bind (m : Machine) (name : String) (address : Address) : Machine :=
  { m with slots := (name, address) :: m.slots.filter (·.1 ≠ name) }

def state (m : Machine) (handle : Handle) : State :=
  (m.states[handle]?).getD { alive := false }

def setState (m : Machine) (handle : Handle) (s : State) : Machine :=
  { m with states := m.states.set handle s }

def isAlive (m : Machine) (handle : Handle) : Bool :=
  (m.state handle).alive

/-- A message for a state's error function, if it has one. -/
def diagnose (m : Machine) (handle : Handle) (text : String) : List Emission :=
  if (m.state handle).listening then [.message handle (.upToNul (Text.Utf8.encode text))]
  else []

/-- A message sent between calls: whether the state is there, and what its error function gets. A
null message, or one with a null token, is not passed on. -/
def send (m : Machine) (handle : Handle) (message? : Option CText) : Int32 × List Emission :=
  if m.isAlive handle then (0, message?.toList.map (.message handle ·)) else (-1, [])

def create (m : Machine) : Bool × Machine :=
  match m.forcedStatus? .new with
  | some _ => (false, m)
  | none => (true, { m with states := m.states ++ [{}] })

/-- One directive of a unit under compilation: the machine, what it sends, and whether the unit has
failed. -/
def obey (handle : Handle) (unit : String) (progress : Machine × List Emission × Bool)
    (line : Nat × Directive) : Machine × List Emission × Bool :=
  let (m, sent, failed) := progress
  let place := unit ++ ":" ++ toString line.1 ++ ": "
  let s := m.state handle
  match line.2 with
  | .warning text => (m, sent ++ m.diagnose handle (place ++ "warning: " ++ text), failed)
  | .error text => (m, sent ++ m.diagnose handle (place ++ "error: " ++ text), true)
  | .exports name value =>
    let (m, address) : Machine × Address := match value with
      | .returning n => ({ m with returnValue := n }, .compiled "ret")
      | .code label => (m, .compiled label)
      | .word w => (m, .word w)
      | .nothing => (m, .null)
    (m.setState handle { s with defined := s.defined ++ [(name, address)] },
      sent, failed)
  | .imports name =>
    (m.setState handle { s with imports := s.imports ++ [name] }, sent, failed)

def greetingText : String := "Hello from compiled code"

/-- What the greeting unit exports and imports beside its directives. -/
def greet (m : Machine) (handle : Handle) (source : String) : Machine :=
  if m.greeting && (source.splitOn greetingText).length > 1 then
    let s := m.state handle
    m.setState handle { s with
      defined := s.defined ++ [("foo", .compiled "greet")]
      imports := s.imports ++ ["add", "hello"] }
  else m

/-- Exports and imports of a failed unit stay. -/
def compile (m : Machine) (handle : Handle) (unit source : String) :
    Answer × List Emission × Machine :=
  let (m, sent, failed) := (directives source).foldl (obey handle unit) (m, [], false)
  let m := m.greet handle source
  if failed then ({ status := -1 }, sent, m)
  else
    let s := m.state handle
    ({ status := 0 }, sent, m.setState handle { s with units := s.units + 1 })

def compileFile (m : Machine) (handle : Handle) (path : CText) :
    Answer × List Emission × Machine :=
  match m.files.readText ⟨path.bytes⟩ with
  | .ok source => m.compile handle path.text source
  | .error _ =>
    ({ status := -1 }, m.diagnose handle ("tcc: error: file '" ++ path.text ++ "' not found"), m)

/-- Pages that the size query reports. -/
def codeSize : Int32 := 4096

def relocate (m : Machine) (handle : Handle) (target : Target) :
    Answer × List Emission × Machine :=
  let s := m.state handle
  if s.outputType? ≠ some 1 then
    ({ status := -1 }, m.diagnose handle "tcc: error: relocation requires memory output", m)
  else
    match s.imports.find? fun name => (s.lookup name).isNull with
    | some name =>
      ({ status := -1 }, m.diagnose handle
        ("tcc: error: undefined symbol '" ++ name ++ "'"), m)
    | none =>
      if target = .size then ({ status := codeSize }, [], m)
      else
        let m := s.imports.foldl (fun m name => m.bind name (s.lookup name)) m
        ({ status := 0 }, [], m.setState handle { s with relocated := true })

def outputFile (m : Machine) (handle : Handle) (path : CText) :
    Answer × List Emission × Machine :=
  let s := m.state handle
  let text := "fake-tcc output_type=" ++ toString (s.outputType?.getD 0) ++ " units=" ++
    toString s.units ++ "\n"
  match m.files.write ⟨path.bytes⟩ (Text.Utf8.encode text) with
  | .ok files => ({ status := 0 }, [], { m with files })
  | .error _ =>
    ({ status := -1 }, m.diagnose handle ("tcc: error: could not write '" ++ path.text ++ "'"), m)

end Machine

end EmbeddedC.Scripted
