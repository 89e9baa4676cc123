import Multipart.Part.File

/-! # Configuration -/

namespace Multipart

structure Config where
  chunkSize : Nat := ChunkSize.standard.val
  boundary : Option String := none
  deriving DecidableEq, Repr

namespace Config

def standard : Config := {}

def readSize (c : Config) : ChunkSize := ChunkSize.standard.replace c.chunkSize

end Config

end Multipart
