import EmbeddedC.Toml.Reader

/-!
# Quoted strings

Four forms: basic strings have escapes and literal strings have none, and each may span lines
between tripled quotes. A line end inside is one newline however it is written, and the one right
after the opening quotes is dropped.
-/

namespace EmbeddedC.Toml

open Reader

def isSpace (c : Char) : Bool :=
  c == ' ' || c == '\t'

/-- Characters that may stand in a comment: anything but control characters. -/
def isPlain (c : Char) : Bool :=
  c == '\t' || (' ' ≤ c && c ≤ '~') || '\u0080' ≤ c

def isHexDigit (c : Char) : Bool :=
  c.isDigit || ('a' ≤ c && c ≤ 'f') || ('A' ≤ c && c ≤ 'F')

def digitValue (c : Char) : Nat :=
  if c.isDigit then c.toNat - '0'.toNat
  else if 'a' ≤ c && c ≤ 'f' then c.toNat - 'a'.toNat + 10
  else c.toNat - 'A'.toNat + 10

/-- The number a row of digits writes. -/
def digitsValue (base : Nat) (digits : List Char) : Nat :=
  digits.foldl (fun n c => n * base + digitValue c) 0

def spaces : Reader Unit := do
  let _ ← takeWhile isSpace

/-- A line feed, alone or after a carriage return. -/
def newline : Reader Unit :=
  word "\n" <|> word "\r\n"

namespace Quotation

/-- The scalar value that `n` hexadecimal digits name. -/
private def codePoint (n : Nat) : Reader (List Char) := do
  let value := digitsValue 16 (← times n isHexDigit)
  if value.isValidChar then pure [Char.ofNat value] else refuse

private def escape : Reader (List Char) := do
  char '\\'
  match ← satisfying fun _ => true with
  | 'b' => pure ['\x08']
  | 'f' => pure ['\x0c']
  | 'n' => pure ['\n']
  | 'r' => pure ['\r']
  | 't' => pure ['\t']
  | '"' => pure ['"']
  | '\\' => pure ['\\']
  | 'u' => codePoint 4
  | 'U' => codePoint 8
  | _ => refuse

private def lineEnd : Reader (List Char) := do
  newline
  pure ['\n']

/-- A backslash that ends a line, with all the blank lines and the indentation after it. -/
private def joinedLines : Reader (List Char) := do
  char '\\'
  spaces
  newline
  let _ ← many (newline <|> (do let _ ← takeWhile1 isSpace))
  pure []

private def basicChars : Reader (List Char) :=
  takeWhile1 fun c => isPlain c && c != '"' && c != '\\'

private def literalChars : Reader (List Char) :=
  takeWhile1 fun c => isPlain c && c != '\''

private def concat (r : Reader (List Char)) : Reader (List Char) :=
  List.flatten <$> many r

def basic : Reader String := do
  char '"'
  let body ← concat (basicChars <|> escape)
  char '"'
  pure (String.ofList body)

def literal : Reader String := do
  char '\''
  let body ← concat literalChars
  char '\''
  pure (String.ofList body)

/-- One or two quotes that do not begin the closing three. -/
private def looseQuotes (quote : Char) : Reader (List Char) := fun s =>
  let run := s.takeWhile (· == quote)
  if 1 ≤ run.length ∧ run.length ≤ 2 then some (run, s.drop run.length) else none

/-- The closing three quotes, after up to two that belong to the text. -/
private def closing (quote : Char) : Reader (List Char) := do
  let extra ← takeWhile (· == quote)
  if 3 ≤ extra.length ∧ extra.length ≤ 5 then pure (extra.drop 3) else refuse

private def spanning (quote : Char) (content : Reader (List Char)) : Reader String := do
  let _ ← times 3 (· == quote)
  let _ ← maybe newline
  let body ← concat (content <|> looseQuotes quote)
  let extra ← closing quote
  pure (String.ofList (body ++ extra))

def multilineBasic : Reader String :=
  spanning '"' (basicChars <|> lineEnd <|> joinedLines <|> escape)

def multilineLiteral : Reader String :=
  spanning '\'' (literalChars <|> lineEnd)

def any : Reader String :=
  multilineBasic <|> basic <|> multilineLiteral <|> literal

end Quotation

end EmbeddedC.Toml
