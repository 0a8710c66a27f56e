import EmbeddedC.Address

/-!
# Binary interfaces

A compiler module is driven through one of two binary interfaces: 32-bit pointers with the C
convention, or 64-bit pointers with the system convention. The host is a 64-bit process, where both
conventions are the platform's own.
-/

namespace EmbeddedC

inductive Convention where
  | cdecl
  | system
  deriving DecidableEq, Repr

namespace Convention

def spelling : Convention → String
  | cdecl => "extern \"C\""
  | system => "extern \"system\""

def label : Convention → String
  | cdecl => "Cdecl"
  | system => "System"

/-- Whether the host lowers both conventions to the same calls. -/
def agreeOnHost : Bool := true

/-- Whether code compiled for one convention can be called through the other. -/
def interchangeable (a b : Convention) : Bool :=
  a = b || agreeOnHost

end Convention

inductive Abi where
  | narrow
  | wide
  deriving DecidableEq, Repr

namespace Abi

def pointerWidth : Abi → Nat
  | narrow => 32
  | wide => 64

def convention : Abi → Convention
  | narrow => .cdecl
  | wide => .system

/-- The directory under a layout's root that holds this interface's module. -/
def moduleDir : Abi → String
  | narrow => "x86"
  | wide => "x64"

def ofWidth? : Nat → Option Abi
  | 32 => some narrow
  | 64 => some wide
  | _ => none

/-- The interface of the running process. -/
def host : Abi := wide

/-- Whether this interface can be driven from the running process. -/
def isHost (a : Abi) : Bool :=
  a.pointerWidth = pointerBits

def label : Abi → String
  | narrow => "Narrow"
  | wide => "Wide"

def text (a : Abi) : String :=
  toString a.pointerWidth ++ "-bit/" ++ a.convention.spelling

end Abi

end EmbeddedC
