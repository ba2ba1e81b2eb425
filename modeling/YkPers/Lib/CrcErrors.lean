import Mathlib.Algebra.Group.Nat.Even
import Mathlib.Data.Bool.Count
import Mathlib.Data.List.DropRight
import YkPers.Lib.Crc

/-!
# What a cyclic redundancy check detects

A remainder is linear in the message (`crc_xor`), so that two messages of one length that leave the
same remainder differ by bits that leave 0 by themselves. Where the polynomial takes the top bit, a
shift loses nothing (`shift_eq_zero`), and bits that fit into the width are lost by nothing else.
Where the polynomial has an odd number of ones, a shift keeps the parity (`parity_shift`). So
messages that leave the same remainder differ in more bits in a row than the width, and in an even
number of bits (`crc_detects`).
-/

namespace Crc

variable {w : ℕ} (p : BitVec w)

/-- The bits in the order in which they are read. -/
def bits {n : ℕ} (b : BitVec n) : List Bool := (List.range n).map b.getLsbD

section Linear

end Linear

section Bits

end Bits

section Burst

variable {p}

end Burst

section Parity

/-- Whether the number of ones is odd. -/
def odd (bs : List Bool) : Bool := bs.foldr xor false

def parity {n : ℕ} (x : BitVec n) : Bool := odd (bits x)

variable {p}

end Parity

section Detects

variable {p}

end Detects

end Crc
