import EmbeddedC.Address

/-!
# Injected symbols

The host symbols a context has made visible to compiled code, in the order of first injection, with
an index from names to positions. Injecting a name again replaces its record in place.
-/

namespace EmbeddedC

inductive SymbolKind where
  | function
  | data
  deriving DecidableEq, Repr

def SymbolKind.label : SymbolKind → String
  | .function => "Function"
  | .data => "Data"

structure InjectedSymbol where
  name : String
  kind : SymbolKind
  address : Address
  deriving DecidableEq, Repr

structure SymbolTable where
  entries : List InjectedSymbol := []
  index : List (String × Nat) := []
  deriving DecidableEq, Repr, Inhabited

namespace SymbolTable

def empty : SymbolTable := {}

/-- Records a symbol. The first component is the address the name had before. -/
def record (t : SymbolTable) (symbol : InjectedSymbol) : Option Address × SymbolTable :=
  match t.index.lookup symbol.name with
  | some slot =>
    (t.entries[slot]?.map (·.address), { t with entries := t.entries.set slot symbol })
  | none =>
    (none, { entries := t.entries ++ [symbol]
             index := (symbol.name, t.entries.length) :: t.index })

def get? (t : SymbolTable) (name : String) : Option InjectedSymbol :=
  (t.index.lookup name).bind fun slot => t.entries[slot]?

def size (t : SymbolTable) : Nat :=
  t.entries.length

end SymbolTable

/-- Names cross into C as texts without NUL, and no symbol is nameless. -/
def isSymbolName (name : String) : Bool :=
  name ≠ "" && !name.toList.contains '\x00'

end EmbeddedC
