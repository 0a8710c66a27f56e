import EmbeddedC.Config
import EmbeddedC.Error
import EmbeddedC.Toml.Document

/-!
# Config files

A config is read from a document with two sections. A section is a table, of which unknown names are
ignored, or an array that gives its fields in order; a field that is not given has its default, and
one of the wrong type makes the file invalid.
-/

namespace EmbeddedC.Config

open Toml

inductive Section where
  | named (entries : Entries)
  | listed (items : List Node)

/-- The name under which a date stands where a table is expected. -/
def dateName : String := "$__toml_private_datetime"

def Section.ofNode? : Node → Option Section
  | .table _ entries => some (.named entries)
  | .array items => some (.listed items)
  | .tables elements => some (.listed (elements.map (.table .explicit)))
  | .scalar (.dateTime d) => some (.named [(dateName, .scalar (.string d.text))])
  | .scalar _ => none

/-- A field's node: by name, or by position. -/
def Section.field? : Section → Nat → String → Option Node
  | named entries, _, name => entries.lookup name
  | listed items, position, _ => items[position]?

/-- A field that is not given takes its default; one that is given must decode. -/
def Section.decode {α : Type} (s : Section) (position : Nat) (name : String) (default : α)
    (decode? : Node → Option α) : Option α :=
  match s.field? position name with
  | none => some default
  | some node => decode? node

def text? : Node → Option String
  | .scalar (.string s) => some s
  | _ => none

def path? (n : Node) : Option Path :=
  (text? n).map .ofString

def paths? : Node → Option (List Path)
  | .array items => items.mapM path?
  | _ => none

def boolean? : Node → Option Bool
  | .scalar (.boolean b) => some b
  | _ => none

/-- Macros may only be named. -/
def macros? (n : Node) : Option (List (String × String)) :=
  match Section.ofNode? n with
  | some (.named entries) => entries.mapM fun (name, node) => do pure (name, ← text? node)
  | _ => none

def defines? (n : Node) : Option MacroTable :=
  (macros? n).map .ofList

def native? (n : Node) : Option NativeSection := do
  let s ← Section.ofNode? n
  let root ← s.decode 0 "root" none (some <$> path? ·)
  let module ← s.decode 1 "module" none (some <$> path? ·)
  let libPath ← s.decode 2 "lib_path" none (some <$> path? ·)
  let defaultPaths ← s.decode 3 "default_paths" true boolean?
  pure ⟨root, module, libPath, defaultPaths⟩

def compile? (n : Node) : Option CompileSection := do
  let s ← Section.ofNode? n
  let includePaths ← s.decode 0 "include_paths" [] paths?
  let sysIncludePaths ← s.decode 1 "sys_include_paths" [] paths?
  let libraryPaths ← s.decode 2 "library_paths" [] paths?
  let options ← s.decode 3 "options" none (some <$> text? ·)
  let defines ← s.decode 4 "defines" .empty defines?
  pure ⟨includePaths, sysIncludePaths, libraryPaths, options, defines⟩

/-- The config that a text describes. -/
def ofText? (text : String) : Option Config := do
  let s := Section.named (← parse? text)
  let native ← s.decode 0 "native" {} native?
  let compile ← s.decode 1 "compile" {} compile?
  pure ⟨native, compile⟩

def ofText (text : String) (origin : Path) : Except ConfigError Config :=
  match ofText? text with
  | some c => .ok c
  | none => .error (.malformed origin)

end EmbeddedC.Config
