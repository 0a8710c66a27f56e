import EmbeddedC.CommandLine.OutputName
import EmbeddedC.Log

/-!
# Invocations

What a command line asks for. Options may stand before the command or after it; where the same option
stands in both places, what comes after the command counts. A word that is no option, no command and
no value of an option has no place, and neither has a program argument before a double dash.
-/

namespace EmbeddedC.CommandLine

/-- Options that every command takes. -/
structure Flags where
  config? : Option Path := none
  includeDirs : List Path := []
  libraryDirs : List Path := []
  libraries : List String := []
  defines : List String := []
  options? : Option String := none
  verbose : Nat := 0
  quiet : Nat := 0
  deriving DecidableEq, Repr

/-- Requests for more or less of the log are counted no further than this. -/
def Flags.mostRequests : Nat := 255

/-- One request more for the log. -/
def Flags.louder (f : Flags) : Flags :=
  { f with verbose := min (f.verbose + 1) mostRequests }

/-- One request more for silence. -/
def Flags.quieter (f : Flags) : Flags :=
  { f with quiet := min (f.quiet + 1) mostRequests }

inductive Command where
  | run (file : Path) (arguments : List String)
  | build (file : Path) (output? : Option Path) (kind : Kind)
  | demo
  deriving DecidableEq, Repr

structure Invocation where
  flags : Flags
  command : Command
  deriving DecidableEq, Repr

/-- Flags given after the command, where they are given, else those before it. -/
def Flags.after (outer inner : Flags) : Flags :=
  { config? := inner.config?.or outer.config?
    includeDirs := if inner.includeDirs = [] then outer.includeDirs else inner.includeDirs
    libraryDirs := if inner.libraryDirs = [] then outer.libraryDirs else inner.libraryDirs
    libraries := if inner.libraries = [] then outer.libraries else inner.libraries
    defines := if inner.defines = [] then outer.defines else inner.defines
    options? := inner.options?.or outer.options?
    verbose := if inner.verbose = 0 then outer.verbose else inner.verbose
    quiet := if inner.quiet = 0 then outer.quiet else inner.quiet }

namespace Invocation

/-- An option with a value. -/
inductive Valued where
  | config
  | includeDir
  | libraryDir
  | library
  | define
  | options
  | output
  | kind
  deriving DecidableEq

/-- The commands by name, and the place before any of them. -/
inductive Scope where
  | outside
  | run
  | build
  | demo
  deriving DecidableEq

/-- What has been read in one scope. -/
structure Reading where
  flags : Flags := {}
  output? : Option Path := none
  kind? : Option Kind := none
  /-- Words that are no options, up to a double dash. -/
  words : List String := []
  /-- Words after a double dash. -/
  trailing? : Option (List String) := none

private def valuedShort? (scope : Scope) : Char → Option Valued
  | 'I' => some .includeDir
  | 'L' => some .libraryDir
  | 'l' => some .library
  | 'D' => some .define
  | 'o' => if scope = .build then some .output else none
  | _ => none

private def valuedLong? (scope : Scope) : String → Option Valued
  | "config" => some .config
  | "options" => some .options
  | "output" => if scope = .build then some .output else none
  | "kind" => if scope = .build then some .kind else none
  | _ => none

private def path? (value : String) : Option Path :=
  if value.isEmpty then none else some (.ofString value)

/-- Takes a value. Paths are not empty, and an option that does not repeat stands once. -/
private def Reading.take (r : Reading) (option : Valued) (value : String) : Option Reading :=
  match option with
  | .config =>
    if r.flags.config?.isSome then none
    else do pure { r with flags := { r.flags with config? := some (← path? value) } }
  | .includeDir => do
    let includeDirs := r.flags.includeDirs ++ [← path? value]
    pure { r with flags := { r.flags with includeDirs } }
  | .libraryDir => do
    let libraryDirs := r.flags.libraryDirs ++ [← path? value]
    pure { r with flags := { r.flags with libraryDirs } }
  | .library =>
    some { r with flags := { r.flags with libraries := r.flags.libraries ++ [value] } }
  | .define => some { r with flags := { r.flags with defines := r.flags.defines ++ [value] } }
  | .options =>
    if r.flags.options?.isSome then none
    else some { r with flags := { r.flags with options? := some value } }
  | .output =>
    if r.output?.isSome then none else do pure { r with output? := some (← path? value) }
  | .kind =>
    if r.kind?.isSome then none
    else do pure { r with kind? := some (← Kind.ofSpelling? value) }

/-- Whether a word can be an option's value. Compiler options alone may look like options. -/
private def canBeValue (option : Valued) (word : String) : Bool :=
  option = .options || word = "-" || !word.startsWith "-"

/-- Short options written together. The last may be one whose value is the rest, after an equals
sign or not, or the next word. -/
private def readShorts (scope : Scope) : List Char → Reading → Option (Reading × Option Valued)
  | [], r => some (r, none)
  | 'v' :: rest, r => readShorts scope rest { r with flags := r.flags.louder }
  | 'q' :: rest, r => readShorts scope rest { r with flags := r.flags.quieter }
  | c :: rest, r => do
    let option ← valuedShort? scope c
    match rest with
    | [] => pure (r, some option)
    | '=' :: value => pure (← r.take option (String.ofList value), none)
    | value => pure (← r.take option (String.ofList value), none)

/-- A long option, whose value stands after an equals sign or is the next word. -/
private def readLong (scope : Scope) (body : List Char) (r : Reading) :
    Option (Reading × Option Valued) :=
  let name := String.ofList (body.takeWhile (· ≠ '='))
  match name, body.dropWhile (· ≠ '=') with
  | "verbose", [] => some ({ r with flags := r.flags.louder }, none)
  | "quiet", [] => some ({ r with flags := r.flags.quieter }, none)
  | _, [] => do pure (r, some (← valuedLong? scope name))
  | _, _ :: value => do pure (← r.take (← valuedLong? scope name) (String.ofList value), none)

def Scope.ofName? : String → Option Scope
  | "run" => some .run
  | "build" => some .build
  | "demo" => some .demo
  | _ => none

/-- How many words a command takes before a double dash, and whether it takes all after one. -/
def Scope.wordLimit : Scope → Nat
  | .run | .build => 1
  | .outside | .demo => 0

/-- Reads the words of one scope. Outside of commands, a command's name ends them. An option that
is waiting for its value gets the next word. -/
private def read (scope : Scope) :
    Option Valued → List String → Reading → Option (Reading × Option (Scope × List String))
  | none, [], r => some (r, none)
  | some _, [], _ => none
  | some option, word :: rest, r => do
    if canBeValue option word then read scope none rest (← r.take option word) else none
  | none, word :: rest, r =>
    match if scope = .outside then Scope.ofName? word else none with
    | some command => some (r, some (command, rest))
    | none =>
      if word = "--" then some ({ r with trailing? := some rest }, none)
      else if word.startsWith "-" && word ≠ "-" then do
        let (r, waiting?) ← match word.toList with
          | '-' :: '-' :: body => readLong scope body r
          | body => readShorts scope (body.drop 1) r
        read scope waiting? rest r
      else if r.words.length < scope.wordLimit then
        read scope none rest { r with words := r.words ++ [word] }
      else none

/-- Verbose and quiet exclude each other in one place. -/
private def Reading.flags? (r : Reading) : Option Flags :=
  if r.flags.verbose > 0 && r.flags.quiet > 0 then none else some r.flags

private def command? (scope : Scope) (r : Reading) : Option Command :=
  match scope, r.words, r.trailing?.getD [] with
  | .run, [file], arguments => do pure (.run (← path? file) arguments)
  | .build, [file], [] => do pure (.build (← path? file) r.output? (r.kind?.getD .exe))
  | .build, [], [file] => do pure (.build (← path? file) r.output? (r.kind?.getD .exe))
  | .demo, [], [] => some .demo
  | _, _, _ => none

/-- The invocation that a command line writes, if it is one. -/
def ofWords? (words : List String) : Option Invocation := do
  let (before, rest?) ← read .outside none words {}
  let (scope, rest) ← rest?
  let (after, _) ← read scope none rest {}
  let command ← command? scope after
  pure ⟨(← before.flags?).after (← after.flags?), command⟩

end Invocation

/-- Warnings and errors are shown unless asked otherwise, one level for each request. -/
def Flags.verbosity (f : Flags) : Verbosity :=
  ⟨Level.warn.rank + f.verbose - f.quiet⟩

end EmbeddedC.CommandLine
