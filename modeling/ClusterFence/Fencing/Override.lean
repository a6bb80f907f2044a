import ClusterFence.Node

namespace ClusterFence.Override

/-- The longest line that is read. -/
def lineLimit : Nat := 127

/-- The name in a line: all that is before the first control character. -/
def nameIn (line : List UInt8) : List UInt8 := line.takeWhile (32 ≤ ·)

/-- The small letter for a capital one of the Latin alphabet; all other bytes stay. -/
def lower (b : UInt8) : UInt8 := if 65 ≤ b && b ≤ 90 then b + 32 else b

/-- The line names the victim, capital and small letters apart. -/
def names (victim : String) (line : List UInt8) : Bool :=
  (nameIn (line.take lineLimit)).map lower == victim.toUTF8.toList.map lower

/-- What is at the path of the pipe beforehand: nothing, not even a directory to make it in, a
    file, or a directory. -/
inductive Place where
  | free
  | noDirectory
  | file
  | directory
deriving DecidableEq, Repr, Inhabited

/-- The pipe can be made, and a victim without a name is not waited for. -/
def opens (place : Place) (victim : String) : Bool := place == .free && !victim.isEmpty

/-- The pipe can be read and written by its owner only. -/
def permissions : Nat := 0o600

/-- How a wait ended: whether the victim was named, with which permissions a writer found the
    pipe, and whether something is at its path afterwards. -/
structure Wait where
  named : Bool
  found : Option Nat
  leftBehind : Bool
deriving DecidableEq, Repr, Inhabited

/-- A wait during which an administrator writes a line as soon as there is a pipe, or nobody
    writes. In the end whatever is at the path is removed, unless it is a directory. -/
def wait (place : Place) (victim : String) (line : Option (List UInt8)) : Wait :=
  let written := if opens place victim then line.filter (!·.isEmpty) else none
  { named := written.any (names victim)
    found := written.map fun _ => permissions
    leftBehind := place == .directory }

end ClusterFence.Override
