import Headroom.Block
import Headroom.Cluster.Record
import Headroom.Scaling.Error
import Headroom.Time.Instant

/-!
The parameters of scaling: how demand is counted, how much is kept spare, and when a cordoned node
may go.
-/

namespace Headroom.Scaling

open Cluster (Protection)

/-- Parameters that have been checked. -/
structure Config where
  block : BlockSize
  target : Nat
  target_le : (target : Int) ≤ Word.greatest
  grace : Duration
  protection : Protection
  deriving DecidableEq

/-- The parameters with a block of `raw` capacity and `target` spare blocks. A block of nothing is
refused before a negative target. -/
def Config.make (raw : UInt64) (target : Int64) (grace : Duration) (protection : Protection) :
    Except Error Config :=
  match BlockSize.ofRaw? raw with
  | none => .error (.invalidConfig "block_size must be positive")
  | some block =>
    if target.toInt < 0 then
      .error (.invalidConfig ("target_buffer must not be negative, got " ++ toString target.toInt))
    else
      .ok {
        block, grace, protection
        target := target.toInt.toNat
        target_le := by have := target.toInt_lt; unfold Word.greatest; omega }

end Headroom.Scaling
