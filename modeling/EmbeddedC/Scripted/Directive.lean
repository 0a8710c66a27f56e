import EmbeddedC.Address

/-!
# Scripted sources

A source for the scripted compiler is read line by line for comments that say what compiling it
does: warn, fail, export a symbol or import one. All other lines mean nothing.
-/

namespace EmbeddedC.Scripted

/-- What an exported name stands for. -/
inductive Export where
  /-- A program that returns a number fixed at compile time. -/
  | returning (value : Int32)
  | code (label : String)
  | word (value : UInt64)
  | nothing
  deriving DecidableEq, Repr

inductive Directive where
  | warning (text : String)
  | error (text : String)
  | exports (name : String) (value : Export)
  | imports (name : String)
  deriving DecidableEq, Repr

private def isMargin (c : Char) : Bool :=
  c == ' ' || c == '\t' || c == '\r'

private def trim (s : List Char) : List Char :=
  ((s.dropWhile isMargin).reverse.dropWhile isMargin).reverse

/-- What follows `lead`, if the text starts with it. -/
private def after? (lead : String) (s : List Char) : Option (List Char) :=
  if lead.toList.isPrefixOf s then some (s.drop lead.length) else none

private def digit? (c : Char) : Option Nat :=
  if c.isDigit then some (c.toNat - '0'.toNat)
  else if 'a' ≤ c && c ≤ 'f' then some (c.toNat - 'a'.toNat + 10)
  else if 'A' ≤ c && c ≤ 'F' then some (c.toNat - 'A'.toNat + 10)
  else none

private def natural? (base : Nat) : List Char → Option Nat
  | [] => none
  | cs => cs.foldlM (fun n c => do
      let d ← digit? c
      if d < base then pure (n * base + d) else none) 0

/-- A decimal number with an optional sign, if it fits 32 signed bits. -/
def number? (s : List Char) : Option Int32 := do
  let value : Int ← match s with
    | '-' :: digits => (fun n : Nat => -(n : Int)) <$> natural? 10 digits
    | '+' :: digits => (fun n : Nat => (n : Int)) <$> natural? 10 digits
    | digits => (fun n : Nat => (n : Int)) <$> natural? 10 digits
  if Int32.minValue.toInt ≤ value ∧ value ≤ Int32.maxValue.toInt then pure (Int32.ofInt value)
  else none

private def word? (s : List Char) : Option UInt64 := do
  let value ← natural? 16 s
  if value < UInt64.size then pure (UInt64.ofNat value) else none

/-- The code that a script can export by name. -/
def exportable : List String := ["main", "foo", "bump"]

/-- What stands behind an exported name. All that follows the one blank after `@ret` is the number;
one that cannot be read counts as zero. -/
private def readExport (s : List Char) : Export :=
  match after? "@ret " s, s with
  | some number, _ => .returning ((number? number).getD 0)
  | none, '@' :: rest =>
    if String.ofList rest ∈ exportable then .code (String.ofList rest) else .nothing
  | none, '0' :: 'x' :: digits => .word ((word? digits).getD 0)
  | none, _ => .nothing

/-- The directive on a line, if there is one. -/
def Directive.ofLine? (line : List Char) : Option Directive := do
  let body := trim (← after? "//" (trim line))
  match after? "warn:" body with
  | some rest => return .warning (String.ofList (trim rest))
  | none =>
  match after? "error:" body with
  | some rest => return .error (String.ofList (trim rest))
  | none =>
  match after? "export " body with
  | some rest =>
    let rest := trim rest
    return .exports (String.ofList (rest.takeWhile (· ≠ ' ')))
      (readExport (trim (rest.dropWhile (· ≠ ' '))))
  | none =>
  match after? "import " body with
  | some rest => return .imports (String.ofList (trim rest))
  | none => none

private def cutLines : List Char → List (List Char)
  | [] => [[]]
  | c :: rest =>
    if c = '\n' then [] :: cutLines rest
    else match cutLines rest with
      | [] => [[c]]
      | line :: lines => (c :: line) :: lines

/-- The directives of a source with the numbers of their lines, counted from one. -/
def directives (source : String) : List (Nat × Directive) :=
  ((cutLines source.toList).zipIdx 1).filterMap fun (line, number) =>
    (Directive.ofLine? line).map fun d => (number, d)

end EmbeddedC.Scripted
