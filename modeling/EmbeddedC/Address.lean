import EmbeddedC.Text.Quoted

/-!
# Addresses

What an injected or looked-up symbol stands for: something the host owns, something compiled code
owns, or a bare word about which nothing else is known. Owned things are told apart by label.
-/

namespace EmbeddedC

/-- Bits of a pointer in the running process. -/
def pointerBits : Nat := 64

inductive Address where
  | host (label : String)
  | compiled (label : String)
  | word (value : UInt64)
  deriving DecidableEq, Repr

namespace Address

def null : Address := word 0

instance : Inhabited Address := ⟨null⟩

def isNull (a : Address) : Bool :=
  a = null

/-- The address, unless it is null. -/
def nonNull? (a : Address) : Option Address :=
  if a.isNull then none else some a

def text : Address → String
  | host label => "host:" ++ label
  | compiled label => "foreign:" ++ label
  | word value => "0x" ++ Text.hex value.toNat

end Address

/-- Memory of the host's own, in which code can be placed. It is never at the null address. -/
structure HostMemory where
  address : Address
  notNull : address ≠ .null
  deriving DecidableEq, Repr

/-- A buffer of the host's that goes by no other name. -/
instance : Inhabited HostMemory := ⟨⟨.host "memory", by decide⟩⟩

end EmbeddedC
