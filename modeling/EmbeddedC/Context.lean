import EmbeddedC.EntryTable
import EmbeddedC.Error
import EmbeddedC.World

/-!
# Compilation contexts

A context is one foreign state and what the host has attached to it. It walks through its stages in
one direction; its handle is gone exactly when it has been released.
-/

namespace EmbeddedC

/-- Runs right before each unit is handed to the compiler. -/
structure Hook where
  tag : String
  deriving DecidableEq, Repr

structure Context where
  table : EntryTable
  /-- The number of the state, which also names its error channel and outlives it. -/
  number : Handle
  handle? : Option Handle
  stage : Stage := .created
  outputType : OutputType := .memory
  /-- The compiler has been told the output type. -/
  typeFixed : Bool := false
  /-- A relocation, or a query of its size, has reached the compiler. -/
  relocateAttempted : Bool := false
  /-- The latest of them failed, and no unit has been compiled since. -/
  relocationFailed : Bool := false
  symbols : SymbolTable := {}
  hook? : Option Hook := none
  deriving DecidableEq, Repr

namespace Context

def abi (c : Context) : Abi := c.table.abi

/-- A context as first created. -/
def fresh (table : EntryTable) (handle : Handle) : Context :=
  { table, number := handle, handle? := some handle }

def outline (c : Context) (channel : Channel) : Text.Outline :=
  .opened "CompilationContext"
    [("abi", .text c.abi.label), ("stage", c.stage.outline),
      ("output_type", .text c.outputType.label), ("symbols", .text (toString c.symbols.size)),
      ("channel", channel.outline)]

end Context

/-- A context among the others. -/
structure Live (σ : Type) where
  context : Context
  world : World σ

/-- What can be done with a context. -/
abbrev ContextAction (σ α : Type) : Type :=
  Action Event (Live σ) BindError α

namespace ContextAction

variable {σ : Type}

def modify (f : Context → Context) : ContextAction σ Unit :=
  Action.modify fun s => { s with context := f s.context }

def context : ContextAction σ Context := do
  pure (← Action.get).context

def log (record : LogRecord) : ContextAction σ Unit :=
  Action.emit [.logged record]

variable (compiler : Compiler σ)

/-- A foreign call on the context's state. Without a handle the compiler does nothing. -/
def call (request : Request) : ContextAction σ Answer :=
  Action.step fun s =>
    match s.context.handle? with
    | some handle =>
      let (answer, world, events) := World.call compiler handle request s.world
      (answer, { s with world }, events)
    | none => ({}, s, [.called none request {}])

def enter (address : Address) (arguments : Arguments) : ContextAction σ Int32 :=
  Action.step fun s =>
    let (result, world, events) :=
      World.enter compiler s.context.handle? address arguments s.world
    (result, { s with world }, events)

/-- Moves to a stage. Staying is no move. -/
def advance (next : Stage) : ContextAction σ Unit := do
  let c ← context
  if c.stage = next then pure ()
  else
    log (.stageChanged c.stage next)
    modify fun c => { c with stage := next }

def markConfigured : ContextAction σ Unit := do
  let c ← context
  if c.stage = .created then advance .configured else pure ()

/-- A negative status refuses what was asked. -/
def checkStatus (entry : Entry) (argument : String) (status : Int32) : ContextAction σ Unit :=
  if status < 0 then do
    log (.rejected entry.name argument status)
    Action.fail (.rejected entry.name argument status)
  else pure ()

/-- Gives back the foreign state, with all that was attached to it. -/
def release : ContextAction σ Unit := do
  let c ← context
  match c.handle? with
  | none => pure ()
  | some _ =>
    let _ ← call compiler .delete
    modify fun c => { c with handle? := none, symbols := .empty, hook? := none }
    log (.releasedContext c.abi)

end ContextAction

/-- A fresh context on a new state. Its error channel is registered before anything else is done
with it. -/
def Context.create {σ : Type} (compiler : Compiler σ) (table : EntryTable) :
    Action Event (World σ) BindError Context := do
  if !table.abi.isHost then
    Action.fail (.load (.abiMismatch table.abi pointerBits))
  else
    match ← Action.step (World.create compiler) with
    | none => Action.fail .createFailed
    | some handle =>
      let _ ← Action.step (World.call compiler handle .setErrorFunc)
      Action.emit [.logged (.createdContext table.abi table.origin)]
      pure (.fresh table handle)

end EmbeddedC
