import YkPers.Hmac
import YkPers.Lib.SecureHash
import YkPers.ShaSession

/-!
# Sessions of the unified hashes, and of HMAC

What the two interfaces are for. A hash of the standard is named first, and is then fed and asked;
an HMAC is over the text that it is fed. Asked again it has no text any more, and hashes its own
answer with the outer pad.
-/

namespace YkPers

open BlockHash (bits)
open ShaCode (shaSuccess shaNull shaStateError)

/-- The hash of the standard. -/
noncomputable def ShaVersion.hash : ShaVersion → List Bool → List UInt8
  | .sha1 => SecureHash.sha1
  | .sha224 => SecureHash.sha224
  | .sha256 => SecureHash.sha256
  | .sha384 => SecureHash.sha384
  | .sha512 => SecureHash.sha512

/-- The bits of a message that is too long. -/
def ShaVersion.limit : ShaVersion → ℕ
  | .sha1 => 2 ^ 64
  | .sha224 => 2 ^ 64
  | .sha256 => 2 ^ 64
  | .sha384 => 2 ^ 128
  | .sha512 => 2 ^ 128

/-! ## The unified hashes -/

inductive UshaCall where
  | reset (whichSha : ShaVersion)
  | call (c : ShaCall)

structure UshaSession where
  whichSha : ShaVersion
  session : ShaSession

noncomputable def UshaSession.step (s : UshaSession) :
    UshaCall → (ℕ × List UInt8) × UshaSession
  | .reset whichSha => ((shaSuccess.toNat, []), ⟨whichSha, .absorbing []⟩)
  | .call c =>
    ((s.session.step s.whichSha.hash s.whichSha.limit c).1,
      ⟨s.whichSha, (s.session.step s.whichSha.hash s.whichSha.limit c).2⟩)

/-- The functions of `usha.c`, as they are called. -/
def ushaCall (recast : UshaContext → (v : ShaVersion) → v.Context) :
    UshaCall → Proc UshaContext (ℕ × List UInt8)
  | .reset whichSha => do
    let code ← ushaReset recast whichSha
    pure (code, [])
  | .call (.input octets) => do
    let code ← ushaInput octets
    pure (code, [])
  | .call (.finalBits messageBits length) => do
    let code ← ushaFinalBits messageBits length
    pure (code, [])
  | .call .result => ushaResult

/-! ## HMAC -/

/-- As many bytes as an `int` can count. -/
abbrev IntBytes := { bytes : List UInt8 // bytes.length < 2 ^ 31 }

inductive HmacCall where
  | input (text : IntBytes)
  | finalBits (messageBits : UInt8) (length : ℕ)
  | result

inductive HmacSession where
  | absorbing (text : List UInt8)
  | finished (text : List Bool)
  | answered (digest : List UInt8)
  | corrupted (code : ℕ)

namespace HmacSession

section Step

variable (hash : List Bool → List UInt8) (blockSize limit : ℕ) (key : List UInt8)

def input (octets : List UInt8) : HmacSession → ℕ × HmacSession
  | absorbing text =>
    (shaSuccess.toNat, if 8 * (blockSize + text.length + octets.length) < limit
      then absorbing (text ++ octets) else corrupted shaNull.toNat)
  | finished _ => (shaStateError.toNat, corrupted shaStateError.toNat)
  | answered _ => (shaStateError.toNat, corrupted shaStateError.toNat)
  | corrupted code => (code, corrupted code)

def finalBits (messageBits : UInt8) (length : ℕ) : HmacSession → ℕ × HmacSession
  | absorbing text =>
    if length < 8 then (shaSuccess.toNat, finished (bits text ++ firstBits messageBits length))
    else (shaStateError.toNat, corrupted shaStateError.toNat)
  | finished _ => (shaStateError.toNat, corrupted shaStateError.toNat)
  | answered _ => (shaStateError.toNat, corrupted shaStateError.toNat)
  | corrupted code =>
    if length < 8 then (code, corrupted code)
    else (shaStateError.toNat, corrupted shaStateError.toNat)

def answer (digest : List UInt8) : (ℕ × List UInt8) × HmacSession :=
  ((shaSuccess.toNat, digest), answered digest)

def result : HmacSession → (ℕ × List UInt8) × HmacSession
  | absorbing text => answer (BlockHash.hmac hash blockSize key (bits text))
  | finished text => answer (BlockHash.hmac hash blockSize key text)
  | answered digest => answer (hash (bits (BlockHash.outerPad hash blockSize key ++ digest)))
  | corrupted code => ((1, []), corrupted code)

def step (s : HmacSession) : HmacCall → (ℕ × List UInt8) × HmacSession
  | .input text =>
    if text.1.length = 0 then ((shaSuccess.toNat, []), s)
    else (((s.input blockSize limit text).1, []), (s.input blockSize limit text).2)
  | .finalBits messageBits length =>
    if length = 0 then ((shaSuccess.toNat, []), s)
    else (((s.finalBits messageBits length).1, []), (s.finalBits messageBits length).2)
  | .result => s.result hash blockSize key

end Step

end HmacSession

/-- The functions of `hmac.c`, as they are called behind `hmacReset`. -/
def hmacCall (M : Stale) : HmacCall → Proc HmacContext (ℕ × List UInt8)
  | .input text => do
    let code ← hmacInput text text.1.length
    pure (code, [])
  | .finalBits messageBits length => do
    let code ← hmacFinalBits messageBits length
    pure (code, [])
  | .result => hmacResult M

end YkPers
