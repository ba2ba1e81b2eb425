import YkPers.Lib.BlockHash
import YkPers.Lib.Session
import YkPers.Sha

/-!
# A hash that is fed piece by piece

What a context is for, as a machine that keeps the whole message: it takes octets, the last bits
of the message at its end, and gives the hash of all that it was given. A message of `limit` bits
is too long. A call that comes too late is a mistake, and a context with a mistake in it answers
with its code from then on.
-/

namespace YkPers

open BlockHash (bits byteBits)
open ShaCode (shaSuccess shaNull shaStateError)

inductive ShaCall where
  | input (octets : List UInt8)
  | finalBits (messageBits : UInt8) (length : ℕ)
  | result

inductive ShaSession where
  | absorbing (message : List UInt8)
  | finished (message : List Bool)
  | corrupted (code : ℕ)

/-- The first `length` bits of an octet. -/
def firstBits (messageBits : UInt8) (length : ℕ) : List Bool := (byteBits messageBits).take length

namespace ShaSession

section Step

variable (hash : List Bool → List UInt8) (limit : ℕ)

/-- An input that is too long is taken for a success, and makes the context one with a null
pointer. -/
def input (octets : List UInt8) : ShaSession → ℕ × ShaSession
  | absorbing message =>
    (shaSuccess.toNat, if 8 * (message.length + octets.length) < limit
      then absorbing (message ++ octets) else corrupted shaNull.toNat)
  | finished _ => (shaStateError.toNat, corrupted shaStateError.toNat)
  | corrupted code => (code, corrupted code)

def finalBits (messageBits : UInt8) (length : ℕ) : ShaSession → ℕ × ShaSession
  | absorbing message =>
    if length < 8 then (shaSuccess.toNat, finished (bits message ++ firstBits messageBits length))
    else (shaStateError.toNat, corrupted shaStateError.toNat)
  | finished _ => (shaStateError.toNat, corrupted shaStateError.toNat)
  | corrupted code =>
    if length < 8 then (code, corrupted code)
    else (shaStateError.toNat, corrupted shaStateError.toNat)

def result : ShaSession → (ℕ × List UInt8) × ShaSession
  | absorbing message => ((shaSuccess.toNat, hash (bits message)), finished (bits message))
  | finished message => ((shaSuccess.toNat, hash message), finished message)
  | corrupted code => ((code, []), corrupted code)

def step (s : ShaSession) : ShaCall → (ℕ × List UInt8) × ShaSession
  | .input octets =>
    if octets.length = 0 then ((shaSuccess.toNat, []), s)
    else (((s.input limit octets).1, []), (s.input limit octets).2)
  | .finalBits messageBits length =>
    if length = 0 then ((shaSuccess.toNat, []), s)
    else (((s.finalBits messageBits length).1, []), (s.finalBits messageBits length).2)
  | .result => s.result hash

end Step

end ShaSession

/-- The functions of a family, as they are called. -/
def shaCall {η ℓ : Type} {n : ℕ} (F : ShaFamily η ℓ n) (hashSize : ℕ) :
    ShaCall → Proc (ShaContext η ℓ n) (ℕ × List UInt8)
  | .input octets => do
    let code ← shaInput F octets
    pure (code, [])
  | .finalBits messageBits length => do
    let code ← shaFinalBits F messageBits length
    pure (code, [])
  | .result => shaResultN F hashSize

end YkPers
