import EmbeddedC.Text.Quoted

/-!
# Paths

A path is a sequence of bytes cut by slashes. It need not be text: messages show it with one
replacement character for each broken piece, and quote it byte by byte.
-/

namespace EmbeddedC

structure Path where
  bytes : List UInt8
  deriving DecidableEq, Repr, Inhabited

namespace Path

def slash : UInt8 := 0x2F

def dot : UInt8 := 0x2E

def ofString (s : String) : Path :=
  ⟨Text.Utf8.encode s⟩

def display (p : Path) : String :=
  Text.Utf8.lossy p.bytes

def quoted (p : Path) : String :=
  Text.quotedBytes p.bytes

def isAbsolute (p : Path) : Bool :=
  p.bytes.head? == some slash

/-- An absolute second path stands for itself. Otherwise one slash separates the two, unless the
first path is empty or brings its own. -/
def join (p q : Path) : Path :=
  if q.isAbsolute then q
  else if p.bytes.isEmpty || p.bytes.getLast? == some slash then ⟨p.bytes ++ q.bytes⟩
  else ⟨p.bytes ++ slash :: q.bytes⟩

/-- A text joined as a relative path. -/
def child (p : Path) (name : String) : Path :=
  p.join (ofString name)

/-- The parts between slashes, empty ones included. -/
def cut : List UInt8 → List (List UInt8)
  | [] => [[]]
  | b :: rest =>
    if b = slash then [] :: cut rest
    else match cut rest with
      | [] => [[b]]
      | part :: parts => (b :: part) :: parts

def segments (p : Path) : List (List UInt8) :=
  cut p.bytes

inductive Component where
  | root
  | current
  | up
  | normal (name : List UInt8)
  deriving DecidableEq, Repr

/-- A segment that is not the first: repeated slashes and single dots between them say nothing. -/
def Component.ofSegment? (segment : List UInt8) : Option Component :=
  if segment = [] ∨ segment = [dot] then none
  else if segment = [dot, dot] then some .up
  else some (.normal segment)

/-- The steps a path stands for. A single dot counts only at the start of a relative path. -/
def components (p : Path) : List Component :=
  match p.segments with
  | [] => []
  | first :: rest =>
    let inner := rest.filterMap Component.ofSegment?
    if first = [] ∧ rest ≠ [] then .root :: inner
    else if first = [dot] then .current :: inner
    else (Component.ofSegment? first).toList ++ inner

end Path

end EmbeddedC
