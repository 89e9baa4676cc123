import Multipart.Error

/-!
# Sizes

A size has 64 bits. A build that checks its sums panics at one that needs more, and any other build
keeps the low 64 bits of it.
-/

namespace Multipart

inductive Build
  | checked
  | unchecked
  deriving DecidableEq, Repr

namespace Build

def add (build : Build) (a b : Nat) : Except Panic Nat :=
  if a + b < UInt64.size then .ok (a + b)
  else match build with
    | .checked => .error .sumOverflow
    | .unchecked => .ok ((a + b) % UInt64.size)

def addAll (build : Build) (total : Nat) (sizes : List Nat) : Except Panic Nat :=
  sizes.foldlM build.add total

end Build

/-- No buffer is larger, since offsets into it are signed. -/
def largestBuffer : Nat := UInt64.size / 2 - 1

end Multipart
