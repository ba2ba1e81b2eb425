import Mathlib.Algebra.Group.Nat.Defs
import YkPers.Lib.Buffer
import YkPers.Lib.Proc

/-!
# Key derivation, `ykpbkdf2.c`

`ykPbkdf2` runs on the caller's buffer `dk`, whose length is `dklen`, and logs the indices that it
uses on its scratch `block`; returning 0 is `fail`. The scratch is uninitialised: what a block finds
in it is a parameter. `fuel` bounds the number of blocks.
-/

namespace YkPers

open Proc (modify fail fault diverge)

/-- `prfFn` gives what the function stores at its output, which has room for `outputSize` bytes. -/
structure YkPrfMethod where
  outputSize : ℕ
  prfFn : (key text : List UInt8) → (outputSize : ℕ) → Option (List UInt8)
  bounded : ∀ key text size out, prfFn key text size = some out → out.length ≤ size

structure DkState where
  dk : List UInt8
  indices : List ℕ

/-- The bytes of `block`. -/
def blockSize : ℕ := 256

abbrev Scratch := ℕ → Vector UInt8 blockSize

/-- An index used on `block`. -/
def useIndex (block : List UInt8) (i : ℕ) : Proc DkState Unit := do
  modify fun s => { s with indices := s.indices ++ [i] }
  if i < block.length then pure ⟨⟩ else fault

/-- Bytes stored from index `i` on. -/
def storeBytes (block : List UInt8) (i : ℕ) : List UInt8 → Proc DkState (List UInt8)
  | [] => pure block
  | b :: bs => do
    useIndex block i
    storeBytes (block.set i b) (i + 1) bs

def counterBytes (blockCount : UInt32) : List UInt8 :=
  [((blockCount &&& 0xff000000) >>> 24).toUInt8, ((blockCount &&& 0x00ff0000) >>> 16).toUInt8,
   ((blockCount &&& 0x0000ff00) >>> 8).toUInt8, ((blockCount &&& 0x000000ff) >>> 0).toUInt8]

/-- The salt and the number of the block. -/
def startBlock (scratch salt : List UInt8) (blockCount : UInt32) :
    Proc DkState (List UInt8) := do
  let block ← storeBytes scratch 0 salt
  storeBytes block salt.length (counterBytes blockCount)

/-- `dk[i] ^= block[i]` for `n` values of `i`, where `dk` has moved on by `off`. -/
def xorLoop (off : ℕ) (block : List UInt8) (i : ℕ) : ℕ → Proc DkState Unit
  | 0 => pure ⟨⟩
  | n + 1 => do
    useIndex block i
    modify fun s => { s with dk := s.dk.modify (off + i) (· ^^^ block.getD i 0) }
    xorLoop off block (i + 1) n

section Blocks

variable (m : YkPrfMethod) (passphrase salt : List UInt8)

/-- The iterations of a block, with `dklen` bytes of the output left; the result is `block_len`. -/
def iterationLoop (off dklen : ℕ) : ℕ → List UInt8 → ℕ → Proc DkState ℕ
  | 0, _, blockLen => pure blockLen
  | n + 1, block, blockLen =>
    match m.prfFn passphrase (block.take blockLen) block.length with
    | none => fail
    | some out => do
      let block := Buffer.store block 0 out
      xorLoop off block 0 dklen
      iterationLoop off dklen n block m.outputSize

def blockLoop (iterations l : ℕ) (scratch : Scratch) :
    (fuel : ℕ) → (blockCount : UInt32) → (off dklen : ℕ) → Proc DkState Unit
  | 0, _, _, _ => diverge
  | fuel + 1, blockCount, off, dklen =>
    if blockCount.toNat ≤ l then do
      let block ← startBlock (scratch blockCount.toNat).toList salt blockCount
      let blockLen ← iterationLoop m passphrase off dklen iterations block (salt.length + 4)
      let blockLen := if blockLen > dklen then dklen else blockLen
      blockLoop iterations l scratch fuel (blockCount + 1) (off + blockLen) (dklen - blockLen)
    else pure ⟨⟩

/-- The number of blocks, in the arithmetic of `size_t`. -/
def blockTotal (dklen outputSize : ℕ) : ℕ :=
  (dklen + (2 ^ 64 - 1) + outputSize) % 2 ^ 64 / outputSize

def ykPbkdf2 (iterations : ℕ) (scratch : Scratch) (fuel : ℕ) : Proc DkState Unit := do
  if salt.length > 256 then fail
  else if m.outputSize = 0 then fault
  else do
    let s ← Proc.get
    let dklen := s.dk.length
    modify fun s => { s with dk := List.replicate dklen 0 }
    blockLoop m passphrase salt iterations (blockTotal dklen m.outputSize) scratch fuel 1 0 dklen

end Blocks

end YkPers
