/-!
# Outlines

Values described for a reader: a text, a name around a value, or a name with labelled fields. An
outline is printed on one line, or with one line for each part. An open record says that it has more
fields than it shows.
-/

namespace EmbeddedC.Text

inductive Outline where
  | text (s : String)
  | around (name inner : String)
  | closed (name : String) (fields : List (String × Outline))
  | opened (name : String) (fields : List (String × Outline))

namespace Outline

mutual

def line : Outline → String
  | text s => s
  | around name inner => name ++ "(" ++ inner ++ ")"
  | closed name fields => name ++ " \x7b " ++ fieldsLine fields ++ " \x7d"
  | opened name fields => name ++ " \x7b " ++ fieldsLine fields ++ ", .. \x7d"

def fieldsLine : List (String × Outline) → String
  | [] => ""
  | [(label, o)] => label ++ ": " ++ line o
  | (label, o) :: rest => label ++ ": " ++ line o ++ ", " ++ fieldsLine rest

end

private def margin (depth : Nat) : String :=
  String.ofList (List.replicate (4 * depth) ' ')

mutual

def linesAt (depth : Nat) : Outline → String
  | text s => s
  | around name inner =>
    name ++ "(\n" ++ margin (depth + 1) ++ inner ++ ",\n" ++ margin depth ++ ")"
  | closed name fields =>
    name ++ " \x7b\n" ++ fieldLinesAt (depth + 1) fields ++ margin depth ++ "\x7d"
  | opened name fields =>
    name ++ " \x7b\n" ++ fieldLinesAt (depth + 1) fields ++ margin (depth + 1) ++ "..\n" ++
      margin depth ++ "\x7d"

def fieldLinesAt (depth : Nat) : List (String × Outline) → String
  | [] => ""
  | (label, o) :: rest =>
    margin depth ++ label ++ ": " ++ linesAt depth o ++ ",\n" ++ fieldLinesAt depth rest

end

def lines (o : Outline) : String :=
  linesAt 0 o

end Outline

end EmbeddedC.Text
