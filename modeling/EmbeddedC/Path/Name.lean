import EmbeddedC.Path

/-!
# File names

The last component of a path is its file name, unless it is the root or made of dots. A name's last
dot separates stem and extension; a dot that begins the name does not count.
-/

namespace EmbeddedC.Path

/-- Drops, from bytes read backwards, the slashes and single-dot segments that close a path. -/
def trimEnd : List UInt8 → List UInt8
  | a :: b :: rest =>
    if a = slash then trimEnd (b :: rest)
    else if a = dot ∧ b = slash then trimEnd rest
    else a :: b :: rest
  | [a] => if a = slash then [] else [a]
  | [] => []

/-- The file name and all bytes before it. What follows the name is dropped. -/
def splitName? (p : Path) : Option (List UInt8 × List UInt8) :=
  let backwards := trimEnd p.bytes.reverse
  let name := (backwards.takeWhile (· ≠ slash)).reverse
  if name = [] ∨ name = [dot] ∨ name = [dot, dot] then none
  else some ((backwards.dropWhile (· ≠ slash)).reverse, name)

def fileName? (p : Path) : Option (List UInt8) :=
  p.splitName?.map Prod.snd

/-- The stem of a name and its extension, if it has one. -/
def splitStem (name : List UInt8) : List UInt8 × Option (List UInt8) :=
  let backwards := name.reverse
  match backwards.dropWhile (· ≠ dot) with
  | _ :: b :: before => ((b :: before).reverse, some (backwards.takeWhile (· ≠ dot)).reverse)
  | _ => (name, none)

def stem? (p : Path) : Option (List UInt8) :=
  p.fileName?.map fun name => (splitStem name).1

def extension? (p : Path) : Option (List UInt8) :=
  p.fileName?.bind fun name => (splitStem name).2

/-- Cuts as many bytes from the end as the extension has, then puts the new extension after the
stem of the file name that is left. Where no file name is left the path stays as it was cut. -/
def withExtension (p : Path) (ext : List UInt8) : Path :=
  let kept : Path := ⟨p.bytes.take (p.bytes.length - (p.extension?.getD []).length)⟩
  match kept.splitName? with
  | none => kept
  | some (before, name) =>
    ⟨before ++ (splitStem name).1 ++ if ext.isEmpty then [] else dot :: ext⟩

end EmbeddedC.Path
