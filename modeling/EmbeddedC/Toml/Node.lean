/-!
# Documents as trees

A document is a table of named nodes. Where a table came from decides what may still be added to it:
a header may fill in a table that was only implied by longer headers, a dotted key may extend only
tables that dotted keys or longer headers made, and an inline table is closed.
-/

namespace EmbeddedC.Toml

structure Date where
  year : Nat
  month : Nat
  day : Nat
  deriving DecidableEq, Repr

structure Time where
  hour : Nat
  minute : Nat
  second : Nat
  nanosecond : Nat
  deriving DecidableEq, Repr

/-- Minutes ahead of universal time, or universal time itself. -/
inductive Offset where
  | universal
  | ahead (minutes : Int)
  deriving DecidableEq, Repr

structure DateTime where
  date? : Option Date
  time? : Option Time
  offset? : Option Offset
  deriving DecidableEq, Repr

/-- No setting is a floating-point number, so only its presence is kept. -/
inductive Scalar where
  | string (text : String)
  | integer (value : Int)
  | float
  | boolean (value : Bool)
  | dateTime (value : DateTime)
  deriving DecidableEq, Repr

inductive Origin where
  | explicit
  | implied
  | dotted
  | inline
  deriving DecidableEq, Repr

inductive Node where
  | scalar (value : Scalar)
  | array (items : List Node)
  | table (origin : Origin) (entries : List (String × Node))
  | tables (elements : List (List (String × Node)))

abbrev Entries := List (String × Node)

namespace Entries

/-- Sets a name, in its place if it has one. -/
def set (entries : Entries) (name : String) (node : Node) : Entries :=
  match entries with
  | [] => [(name, node)]
  | (n, old) :: rest =>
    if n = name then (name, node) :: rest else (n, old) :: set rest name node

/-- The tables that a path steps through on the way to the one it changes: those made by dotted
keys, or those named by headers. -/
inductive Way where
  | keys
  | headers
  deriving DecidableEq

def Way.origin : Way → Origin
  | keys => .dotted
  | headers => .implied

/-- Changes the table at a path, making tables that are missing. A path ends in the last element of
an array of tables. -/
def modifyAt (way : Way) (change : Origin → Entries → Option Entries) :
    List String → Origin → Entries → Option Entries
  | [], origin, entries => change origin entries
  | name :: path, _, entries =>
    match entries.lookup name with
    | none => do
      let inner ← modifyAt way change path way.origin []
      pure (entries.set name (.table way.origin inner))
    | some (.table .inline _) | some (.scalar _) | some (.array _) => none
    | some (.tables elements) => do
      let inner ← modifyAt way change path .explicit (← elements.getLast?)
      pure (entries.set name (.tables (elements.dropLast ++ [inner])))
    | some (.table origin inner) =>
      if way = .keys ∧ origin = .explicit then none
      else do
        let inner ← modifyAt way change path origin inner
        pure (entries.set name (.table origin inner))

/-- Adds a value under a dotted key. Its name must be new, and the table that receives it must have
been made by dotted keys exactly when the key has dots. -/
def insert (entries : Entries) (path : List String) (name : String) (value : Node) :
    Option Entries :=
  modifyAt .keys
    (fun origin target =>
      if (origin == .dotted) == path.isEmpty then none
      else if (target.lookup name).isSome then none
      else some (target ++ [(name, value)]))
    path .explicit entries

/-- Opens the table of a header: a new one, or one that longer headers implied. -/
def openTable (entries : Entries) (path : List String) (name : String) : Option Entries :=
  modifyAt .headers
    (fun _ target =>
      match target.lookup name with
      | none => some (target ++ [(name, .table .explicit [])])
      | some (.table .implied inner) => some (target.set name (.table .explicit inner))
      | some _ => none)
    path .explicit entries

/-- Adds an empty table to the array of tables that a doubled header names. -/
def openElement (entries : Entries) (path : List String) (name : String) : Option Entries :=
  modifyAt .headers
    (fun _ target =>
      match target.lookup name with
      | none => some (target ++ [(name, .tables [[]])])
      | some (.tables elements) => some (target.set name (.tables (elements ++ [[]])))
      | some _ => none)
    path .explicit entries

/-- Adds a value under a dotted key to the table that the latest header opened. -/
def insertUnder (entries : Entries) (header path : List String) (name : String) (value : Node) :
    Option Entries :=
  modifyAt .headers (fun _ target => target.insert path name value) header .explicit entries

end Entries

end EmbeddedC.Toml
