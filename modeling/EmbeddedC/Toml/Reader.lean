/-!
# Reading characters

A reader takes characters off the front of a text, or refuses. Alternatives start again where the
one before them started.
-/

namespace EmbeddedC.Toml

abbrev Reader := StateT (List Char) Option

namespace Reader

def refuse {α : Type} : Reader α := fun _ => none

/-- The next character, left in place. -/
def peek? : Reader (Option Char) := fun s => some (s.head?, s)

def satisfying (p : Char → Bool) : Reader Char
  | c :: rest => if p c then some (c, rest) else none
  | [] => none

def char (c : Char) : Reader Unit := do
  let _ ← satisfying (· == c)

/-- The characters of `word`, one after the other. -/
def word (word : String) : Reader Unit :=
  word.toList.forM char

def takeWhile (p : Char → Bool) : Reader (List Char) :=
  fun s => some (s.span p)

def takeWhile1 (p : Char → Bool) : Reader (List Char) := do
  match ← takeWhile p with
  | [] => refuse
  | cs => pure cs

/-- Exactly `n` characters of a class. -/
def times (n : Nat) (p : Char → Bool) : Reader (List Char) :=
  (List.range n).mapM fun _ => satisfying p

def atEnd : Reader Unit
  | [] => some ((), [])
  | _ => none

def maybe {α : Type} (r : Reader α) : Reader (Option α) :=
  (some <$> r) <|> pure none

def manyUpTo {α : Type} (r : Reader α) : Nat → Reader (List α)
  | 0 => pure []
  | n + 1 => do
    match ← maybe r with
    | none => pure []
    | some a => (a :: ·) <$> manyUpTo r n

/-- As many as there are. A reader that takes nothing is asked no oftener than there are
characters. -/
def many {α : Type} (r : Reader α) : Reader (List α) := fun s =>
  manyUpTo r s.length s

/-- One or more, with `separator` between them. A separator that nothing follows is left. -/
def separated1 {α : Type} (r : Reader α) (separator : Reader Unit) : Reader (List α) := do
  let first ← r
  let rest ← many (do separator; r)
  pure (first :: rest)

/-- What a reader makes of a whole text. -/
def run? {α : Type} (r : Reader α) (s : List Char) : Option α :=
  match r s with
  | some (a, []) => some a
  | _ => none

end Reader

end EmbeddedC.Toml
