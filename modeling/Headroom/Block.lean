import Headroom.Word

/-!
Blocks of demand, the unit in which spare capacity is counted.
-/

namespace Headroom

/-- The raw capacity that makes up one block; never zero. -/
structure BlockSize where
  raw : UInt64
  nonzero : raw ≠ 0
  deriving DecidableEq

namespace BlockSize

/-- The block size of so much raw capacity, unless that is zero. -/
def ofRaw? (raw : UInt64) : Option BlockSize :=
  if h : raw ≠ 0 then some ⟨raw, h⟩ else none

/-- The block size as a signed word; from 2^63 on it is negative. -/
def signed (block : BlockSize) : Int := Word.signed block.raw

end BlockSize

end Headroom
