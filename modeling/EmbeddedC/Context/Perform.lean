import EmbeddedC.Context.Operation

/-!
# Performing tasks

The part of an operation that reaches the foreign side. Where a foreign status is negative the task
fails with it, and the context stays at its stage.
-/

namespace EmbeddedC

/-- What an operation returns. -/
inductive Value where
  | none
  | size (bytes : Nat)
  | address (address? : Option Address)
  | status (status : Int32)
  deriving DecidableEq, Repr

namespace ContextAction

variable {σ : Type} (compiler : Compiler σ)

/-- Tells the compiler the output type, unless it has been told. -/
def fixType : ContextAction σ Unit := do
  let c ← context
  if c.typeFixed then pure ()
  else
    let answer ← call compiler (.setOutputType c.outputType.code)
    checkStatus .setOutputType c.outputType.text answer.status
    modify fun c => { c with typeFixed := true }
    log (.typeFixed c.outputType)

def runHook : ContextAction σ Unit := do
  let c ← context
  match c.hook? with
  | some hook => Action.emit [.hookRan c.handle? hook.tag]
  | none => pure ()

def configure (setting : Setting) : ContextAction σ Unit := do
  let answer ← call compiler (.configure setting)
  if setting.reportsStatus then
    checkStatus setting.entry setting.argument.text answer.status
  markConfigured

def addLibrary (name : CText) : ContextAction σ Unit := do
  fixType compiler
  let answer ← call compiler (.addLibrary name)
  checkStatus .addLibrary name.text answer.status
  markConfigured

def compile (unit : SourceUnit) : ContextAction σ Unit := do
  fixType compiler
  runHook
  let answer ← call compiler (.compile unit)
  if answer.status < 0 then
    log (.compileFailed unit.name answer.status)
    Action.fail (.compile unit.name answer.status)
  else
    log (.compiled unit.name)
    modify fun c => { c with relocationFailed := false }
    advance .compiled

def inject (name : CText) (symbol : InjectedSymbol) : ContextAction σ Unit := do
  let answer ← call compiler (.addSymbol name symbol.address)
  if answer.status < 0 then Action.fail (.injection (.rejected symbol.name answer.status))
  else
    let c ← context
    let (previous?, symbols) := c.symbols.record symbol
    modify fun c => { c with symbols }
    log (.injected previous?.isSome symbol)

def relocate (target : Target) : ContextAction σ Value := do
  modify fun c => { c with relocateAttempted := true }
  let answer ← call compiler (.relocate target)
  if answer.status < 0 then
    modify fun c => { c with relocationFailed := true }
    log (.relocationFailed answer.status)
    Action.fail (.relocation answer.status)
  else
    match target with
    | .size => pure (.size answer.status.toInt.toNat)
    | .auto =>
      log (.relocated (← context).symbols.size)
      advance .relocated
      pure .none
    | .memory memory =>
      log (.relocatedInto memory)
      advance .relocated
      pure .none

def lookUp (name : CText) : ContextAction σ Value := do
  let answer ← call compiler (.getSymbol name)
  advance (.finalized .resolved)
  pure (.address answer.address.nonNull?)

/-- The name of a program's entry point. -/
def mainName : CText := .upToNul (Text.Utf8.encode "main")

def run (arguments : List CText) : ContextAction σ Value := do
  log (.runningMain arguments.length)
  let answer ← call compiler (.getSymbol mainName)
  match answer.address.nonNull? with
  | none =>
    log .noMain
    Action.fail (.missingEntryPoint mainName.text)
  | some main =>
    let status ← enter compiler main (.program arguments)
    log (.returned status)
    advance (.finalized .ran)
    pure (.status status)

def outputFile (path : CText) : ContextAction σ Unit := do
  let answer ← call compiler (.outputFile path)
  if answer.status < 0 then
    log (.emitFailed ⟨path.bytes⟩ answer.status)
    Action.fail (.emit ⟨path.bytes⟩ answer.status)
  else
    log (.wrote (← context).outputType ⟨path.bytes⟩)
    advance (.finalized .emitted)

def dispose : ContextAction σ Unit := do
  release compiler
  advance .disposed

/-- An action that returns nothing. -/
def silent (x : ContextAction σ Unit) : ContextAction σ Value := do
  x
  pure .none

end ContextAction

open ContextAction in
def Task.perform {σ : Type} (compiler : Compiler σ) : Task → ContextAction σ Value
  | installSink sink? => silent do
    Action.modify fun s => { s with world := s.world.setSink s.context.number sink? }
    markConfigured
  | installHook hook => silent do
    ContextAction.modify fun c => { c with hook? := some hook }
    markConfigured
  | configure setting => silent (ContextAction.configure compiler setting)
  | addLibrary name => silent (ContextAction.addLibrary compiler name)
  | chooseType type => silent do
    ContextAction.modify fun c => { c with outputType := type }
    markConfigured
  | keepType => pure .none
  | compile unit => silent (ContextAction.compile compiler unit)
  | inject name symbol => silent (ContextAction.inject compiler name symbol)
  | relocate target => ContextAction.relocate compiler target
  | lookUp name => ContextAction.lookUp compiler name
  | run arguments => ContextAction.run compiler arguments
  | outputFile path => silent (ContextAction.outputFile compiler path)
  | dispose => silent (ContextAction.dispose compiler)

/-- An operation as a whole: checked, then performed. -/
def Operation.perform {σ : Type} (compiler : Compiler σ) (operation : Operation) :
    ContextAction σ Value := do
  let task ← Action.ofExcept (operation.check (← ContextAction.context))
  task.perform compiler

end EmbeddedC
