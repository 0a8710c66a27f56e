import EmbeddedC.CommandLine.Error
import EmbeddedC.Text.Blank

/-!
# Macro definitions

A definition on the command line is a name, or a name and a value around the first equals sign.
-/

namespace EmbeddedC.CommandLine

structure Define where
  name : String
  value? : Option String
  deriving DecidableEq, Repr

/-- The texts around the first equals sign, or the whole text when there is none. -/
def Define.cut (raw : String) : Define :=
  match raw.toList.dropWhile (· ≠ '=') with
  | [] => ⟨raw, none⟩
  | _ :: value => ⟨String.ofList (raw.toList.takeWhile (· ≠ '=')), some (String.ofList value)⟩

/-- A name must not be empty and must hold no white space; a value may be anything. -/
def Define.parse (raw : String) : Except CommandError Define :=
  let d := cut raw
  if d.name.isEmpty || d.name.toList.any Text.isBlank then .error (.badDefine raw) else .ok d

end EmbeddedC.CommandLine
