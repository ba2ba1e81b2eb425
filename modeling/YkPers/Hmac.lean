import Mathlib.Algebra.Order.Ring.Int
import YkPers.Sha

/-!
# HMAC over the unified hashes, `usha.c`, `hmac.c`

A `UshaContext` is a context of the hash that it names: the union of the source is never read as
another one. What memory that is not set holds is a parameter (`Stale`): a union that is reset for
another hash, and automatic contexts. An array is the bytes that are there, and has as many as the
length beside it says.
-/

namespace YkPers

open Proc (get modify)
open ShaCode (shaSuccess)

/-! ## The unified hashes -/

abbrev ShaVersion.Context : ShaVersion → Type
  | .sha1 => Sha1Context
  | .sha224 => Sha256Context
  | .sha256 => Sha256Context
  | .sha384 => Sha512Context
  | .sha512 => Sha512Context

structure UshaContext where
  whichSha : ShaVersion
  ctx : whichSha.Context

def ushaBlockSize : ShaVersion → ℕ
  | .sha1 => 64
  | .sha224 => 64
  | .sha256 => 64
  | .sha384 => 128
  | .sha512 => 128

def ushaHashSize : ShaVersion → ℕ
  | .sha1 => 20
  | .sha224 => 28
  | .sha256 => 32
  | .sha384 => 48
  | .sha512 => 64

/-- The function of the hash, on its context. -/
def UshaContext.dispatch {α : Type} (f : (v : ShaVersion) → Proc v.Context α) :
    Proc UshaContext α := fun s =>
  ((f s.whichSha s.ctx).1, ⟨s.whichSha, (f s.whichSha s.ctx).2⟩)

/-- `recast` is the union of a context read as the context of another hash. -/
def ushaReset (recast : UshaContext → (v : ShaVersion) → v.Context) (whichSha : ShaVersion) :
    Proc UshaContext ℕ := do
  modify fun s => ⟨whichSha, recast s whichSha⟩
  UshaContext.dispatch fun
    | .sha1 => sha1Reset
    | .sha224 => sha224Reset
    | .sha256 => sha256Reset
    | .sha384 => sha384Reset
    | .sha512 => sha512Reset

def ushaInput (bytes : List UInt8) : Proc UshaContext ℕ :=
  UshaContext.dispatch fun
    | .sha1 => sha1Input bytes
    | .sha224 => sha224Input bytes
    | .sha256 => sha256Input bytes
    | .sha384 => sha384Input bytes
    | .sha512 => sha512Input bytes

def ushaFinalBits (bits : UInt8) (bitcount : ℕ) : Proc UshaContext ℕ :=
  UshaContext.dispatch fun
    | .sha1 => sha1FinalBits bits bitcount
    | .sha224 => sha224FinalBits bits bitcount
    | .sha256 => sha256FinalBits bits bitcount
    | .sha384 => sha384FinalBits bits bitcount
    | .sha512 => sha512FinalBits bits bitcount

def ushaResult : Proc UshaContext (ℕ × List UInt8) :=
  UshaContext.dispatch fun
    | .sha1 => sha1Result
    | .sha224 => sha224Result
    | .sha256 => sha256Result
    | .sha384 => sha384Result
    | .sha512 => sha512Result

/-! ## HMAC -/

/-- `kOpad` is what is set of `k_opad`. -/
structure HmacContext where
  whichSha : ShaVersion
  hashSize : ℕ
  blockSize : ℕ
  shaContext : UshaContext
  kOpad : List UInt8

structure Stale where
  recast : UshaContext → (v : ShaVersion) → v.Context
  tctx : UshaContext
  ctx : HmacContext

/-- `x || y` of two codes -/
def orCode {S : Type} (x y : Proc S ℕ) : Proc S ℕ := do
  let a ← x
  if a ≠ 0 then pure 1
  else do
    let b ← y
    pure (if b ≠ 0 then 1 else 0)

/-- `x || y` where `y` stores a digest -/
def orDigest {S : Type} (x : Proc S ℕ) (y : Proc S (ℕ × List UInt8)) :
    Proc S (ℕ × List UInt8) := do
  let a ← x
  if a ≠ 0 then pure (1, [])
  else do
    let b ← y
    pure (if b.1 ≠ 0 then 1 else 0, b.2)

def onSha {α : Type} : Proc UshaContext α → Proc HmacContext α :=
  Proc.zoom (·.shaContext) fun u c => { c with shaContext := u }

/-- `(int)size` -/
def asInt (size : ℕ) : ℤ :=
  if size % 2 ^ 32 < 2 ^ 31 then (size : ℤ) % 2 ^ 32 else (size : ℤ) % 2 ^ 32 - 2 ^ 32

/-- The bytes of an array that are read where an `int` is its length, unsigned. -/
def takeUnsigned (bytes : List UInt8) (length : ℤ) : List UInt8 :=
  bytes.take (length % 2 ^ 32).toNat

section Hmac

variable (M : Stale)

/-- A key that is longer than a block, in `tempkey`. -/
def hmacHashKey (whichSha : ShaVersion) (key : List UInt8) (keyLen : ℤ) :
    Proc UshaContext (ℕ × List UInt8) :=
  orDigest (orCode (ushaReset M.recast whichSha) (ushaInput (takeUnsigned key keyLen))) ushaResult

/-- The key in a block of `blockSize` bytes, each with `pad`. -/
def hmacPad (blockSize : ℕ) (key : List UInt8) (keyLen : ℤ) (pad : UInt8) : List UInt8 :=
  (key.take keyLen.toNat).map (· ^^^ pad) ++ List.replicate (blockSize - keyLen.toNat) pad

/-- The pads of the key, and the first hash with the inner one. -/
def hmacStart (whichSha : ShaVersion) (key : List UInt8) (keyLen : ℤ) : Proc HmacContext ℕ := do
  let blockSize := ushaBlockSize whichSha
  modify fun c => { c with kOpad := hmacPad blockSize key keyLen 0x5c }
  orCode (onSha (ushaReset M.recast whichSha))
    (onSha (ushaInput (hmacPad blockSize key keyLen 0x36)))

def hmacReset (whichSha : ShaVersion) (key : List UInt8) (keyLen : ℤ) : Proc HmacContext ℕ := do
  modify fun c => { c with
    blockSize := ushaBlockSize whichSha
    hashSize := ushaHashSize whichSha
    whichSha := whichSha }
  if keyLen > ushaBlockSize whichSha then do
    let tempkey ← fun c => ((hmacHashKey M whichSha key keyLen M.tctx).1, c)
    if tempkey.1 ≠ shaSuccess.toNat then pure tempkey.1
    else hmacStart M whichSha tempkey.2 (ushaHashSize whichSha)
  else hmacStart M whichSha key keyLen

def hmacInput (text : List UInt8) (textLen : ℤ) : Proc HmacContext ℕ :=
  onSha (ushaInput (takeUnsigned text textLen))

def hmacFinalBits (bits : UInt8) (bitcount : ℕ) : Proc HmacContext ℕ :=
  onSha (ushaFinalBits bits bitcount)

/-- The array of the caller holds the first digest until it is hashed. -/
def hmacResult : Proc HmacContext (ℕ × List UInt8) := do
  let digest ← onSha ushaResult
  if digest.1 ≠ 0 then pure (1, digest.2)
  else do
    let c ← get
    orDigest (orCode (orCode (onSha (ushaReset M.recast c.whichSha))
      (onSha (ushaInput (c.kOpad.take c.blockSize))))
      (onSha (ushaInput (digest.2.take c.hashSize)))) (onSha ushaResult)

/-- The context of the call is automatic. -/
def hmac (whichSha : ShaVersion) (text : List UInt8) (textLen : ℤ) (key : List UInt8)
    (keyLen : ℤ) : Ret (ℕ × List UInt8) :=
  (orDigest (orCode (hmacReset M whichSha key keyLen) (hmacInput text textLen)) (hmacResult M)
    M.ctx).1

/-- The call in `yk_hmac_sha1`. -/
def hmacSha1 (text key : List UInt8) : Option (Vector UInt8 20) :=
  match hmac M .sha1 text (asInt text.length) key (asInt key.length) with
  | .ok (0, digest) => if h : digest.length = 20 then some ⟨digest.toArray, h⟩ else none
  | _ => none

end Hmac

end YkPers
