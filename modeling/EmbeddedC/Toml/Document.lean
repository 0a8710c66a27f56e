import EmbeddedC.Toml.Calendar
import EmbeddedC.Toml.Number

/-!
# Documents

Lines of a document: a header, a key with its value, a comment, or nothing. Values nest less than
eighty deep and keys have fewer than eighty parts.
-/

namespace EmbeddedC.Toml

open Reader

def nestingLimit : Nat := 80

private def isBareKeyChar (c : Char) : Bool :=
  c.isAlphanum || c == '_' || c == '-'

private def keyPart : Reader String :=
  Quotation.basic <|> Quotation.literal <|> (String.ofList <$> takeWhile1 isBareKeyChar)

/-- A dotted key: the path to its last part, and that part. -/
def key : Reader (List String × String) := do
  let parts ← separated1 (do spaces; let part ← keyPart; spaces; pure part) (char '.')
  match parts.getLast? with
  | some last =>
    if parts.length < nestingLimit then pure (parts.dropLast, last) else refuse
  | none => refuse

private def comment : Reader Unit := do
  char '#'
  let _ ← takeWhile isPlain

/-- Spaces, line ends and comments between the items of an array. -/
private def filler : Reader Unit := do
  let _ ← many ((do let _ ← takeWhile1 isSpace) <|> newline <|> (do comment; newline))

private def boolean : Reader Scalar :=
  (do word "true"; pure (.boolean true)) <|> (do word "false"; pure (.boolean false))

private def scalar : Reader Scalar :=
  (.string <$> Quotation.any) <|> (.dateTime <$> Calendar.dateTime) <|> Number.float <|>
    Number.integer <|> boolean

def array (item : Reader Node) : Reader Node := do
  char '['
  let items ← maybe (separated1 (do filler; let n ← item; filler; pure n) (char ','))
  if items.isSome then
    let _ ← maybe (char ',')
  filler
  char ']'
  pure (.array (items.getD []))

def inlineTable (item : Reader Node) : Reader Node := do
  char '\x7b'
  let pair : Reader ((List String × String) × Node) := do
    let k ← key
    char '='
    spaces
    let n ← item
    spaces
    pure (k, n)
  let pairs := (← maybe (separated1 pair (char ','))).getD []
  spaces
  char '\x7d'
  match pairs.foldlM (fun entries ((path, name), n) => Entries.insert entries path name n) [] with
  | some entries => pure (.table .inline entries)
  | none => refuse

/-- A value that nests at most `depth` deep. -/
def value : Nat → Reader Node
  | 0 => .scalar <$> scalar
  | depth + 1 =>
    array (value depth) <|> inlineTable (value depth) <|> (.scalar <$> scalar)

inductive Line where
  | header (path : List String) (name : String)
  | element (path : List String) (name : String)
  | pair (path : List String) (name : String) (value : Node)
  | blank

/-- What may stand between the end of a statement and the end of its line. -/
private def lineTail : Reader Unit := do
  spaces
  let _ ← maybe comment
  newline <|> atEnd

def headerLine : Reader Line := do
  match ← maybe (word "[[") with
  | some _ =>
    let (path, name) ← key
    word "]]"
    lineTail
    pure (.element path name)
  | none =>
    char '['
    let (path, name) ← key
    char ']'
    lineTail
    pure (.header path name)

def pairLine : Reader Line := do
  let (path, name) ← key
  char '='
  spaces
  let v ← value (nestingLimit - 1)
  lineTail
  pure (.pair path name v)

def blankLine : Reader Line := do
  newline <|> (do comment; newline <|> atEnd)
  pure .blank

def line : Reader Line := do
  let l ← blankLine <|> headerLine <|> pairLine
  spaces
  pure l

def lines : Reader (List Line) := do
  let _ ← maybe (char '\uFEFF')
  spaces
  many line

/-- A table under construction, and the header whose table receives the next pair. -/
def addLine (state : Entries × List String) : Line → Option (Entries × List String)
  | .header path name => do pure (← state.1.openTable path name, path ++ [name])
  | .element path name => do pure (← state.1.openElement path name, path ++ [name])
  | .pair path name v => do pure (← state.1.insertUnder state.2 path name v, state.2)
  | .blank => some state

/-- The table that a text writes, if it is a document. -/
def parse? (text : String) : Option Entries := do
  let read ← run? lines text.toList
  let (entries, _) ← read.foldlM addLine ([], [])
  pure entries

end EmbeddedC.Toml
