import YkPers.Lib.Proc

/-!
# The secure hashes, `sha.h`, `sha1.c`, `sha224-256.c`, `sha384-512.c`

The functions of the three files differ in the type of the value and of the length, the size of a
block and what is done with one: a `ShaFamily`. A context that is not there and an array that is
not there are left out. Each result is the code that is returned, and what is stored in the array
of the caller; a byte stored outside of `Message_Block` is a fault.
-/

namespace YkPers

open Proc (get modify fault)

/-- What all functions return one of. -/
inductive ShaCode where
  | shaSuccess
  | shaNull
  | shaInputTooLong
  | shaStateError
  | shaBadParam
  deriving DecidableEq

def ShaCode.toNat : ShaCode → ℕ
  | shaSuccess => 0
  | shaNull => 1
  | shaInputTooLong => 2
  | shaStateError => 3
  | shaBadParam => 4

open ShaCode (shaSuccess shaStateError)

inductive ShaVersion where
  | sha1
  | sha224
  | sha256
  | sha384
  | sha512
  deriving DecidableEq

/-- `corrupted` is 0 or a code. -/
structure ShaContext (η ℓ : Type) (n : ℕ) where
  intermediateHash : η
  length : ℓ
  messageBlockIndex : ℕ
  messageBlock : Vector UInt8 n
  computed : Bool
  corrupted : ℕ

/-- What a file adds: the macro that adds to the length and tells whether it is too long, the octets
of the length at the end of a block, `lengthSize` of them, and those of the result. -/
structure ShaFamily (η ℓ : Type) (n : ℕ) where
  lengthSize : ℕ
  noLength : ℓ
  addLength : ℓ → ℕ → ℓ × Bool
  lengthOctets : ℓ → List UInt8
  processMessageBlock : η → List UInt8 → η
  resultOctet : η → ℕ → UInt8

/-! ## The functions of a family -/

section Family

variable {η ℓ : Type} {n : ℕ} (F : ShaFamily η ℓ n)

def shaReset (H0 : η) : Proc (ShaContext η ℓ n) ℕ := do
  modify fun c => { c with
    length := F.noLength
    messageBlockIndex := 0
    intermediateHash := H0
    computed := false
    corrupted := 0 }
  pure shaSuccess.toNat

/-- `Message_Block[Message_Block_Index++] = octet` -/
def storeOctet (octet : UInt8) : Proc (ShaContext η ℓ n) Unit := fun c =>
  if h : c.messageBlockIndex < n then
    (.ok ⟨⟩, { c with
      messageBlock := c.messageBlock.set c.messageBlockIndex octet h
      messageBlockIndex := c.messageBlockIndex + 1 })
  else (.fault, c)

def storeZeros : ℕ → Proc (ShaContext η ℓ n) Unit
  | 0 => pure ⟨⟩
  | k + 1 => do
    storeOctet 0
    storeZeros k

/-- Zeros while the index is less than `limit`. -/
def fillZeros (limit : ℕ) : Proc (ShaContext η ℓ n) Unit := do
  let c ← get
  storeZeros (limit - c.messageBlockIndex)

def storeOctetsAt (i : ℕ) : List UInt8 → Proc (ShaContext η ℓ n) Unit
  | [] => pure ⟨⟩
  | octet :: octets => fun c =>
    if h : i < n then
      storeOctetsAt (i + 1) octets { c with messageBlock := c.messageBlock.set i octet h }
    else (.fault, c)

def shaAddLength (bits : ℕ) : Proc (ShaContext η ℓ n) Unit :=
  modify fun c => { c with
    length := (F.addLength c.length bits).1
    corrupted := if (F.addLength c.length bits).2 then 1 else 0 }

def shaProcessMessageBlock : Proc (ShaContext η ℓ n) Unit :=
  modify fun c => { c with
    intermediateHash := F.processMessageBlock c.intermediateHash c.messageBlock.toList
    messageBlockIndex := 0 }

def shaPadMessage (padByte : UInt8) : Proc (ShaContext η ℓ n) Unit := do
  let c ← get
  if n - F.lengthSize ≤ c.messageBlockIndex then do
    storeOctet padByte
    fillZeros n
    shaProcessMessageBlock F
  else storeOctet padByte
  fillZeros (n - F.lengthSize)
  storeOctetsAt (n - F.lengthSize) (F.lengthOctets c.length)
  shaProcessMessageBlock F

def shaFinalize (padByte : UInt8) : Proc (ShaContext η ℓ n) Unit := do
  shaPadMessage F padByte
  modify fun c => { c with
    messageBlock := Vector.replicate n 0
    length := F.noLength
    computed := true }

def shaInputLoop : List UInt8 → Proc (ShaContext η ℓ n) Unit
  | [] => pure ⟨⟩
  | octet :: octets => do
    let c ← get
    if c.corrupted ≠ 0 then pure ⟨⟩
    else do
      storeOctet octet
      shaAddLength F 8
      let c ← get
      if c.corrupted = 0 ∧ c.messageBlockIndex = n then shaProcessMessageBlock F else pure ⟨⟩
      shaInputLoop octets

def shaInput (octets : List UInt8) : Proc (ShaContext η ℓ n) ℕ := do
  let c ← get
  if octets.length = 0 then pure shaSuccess.toNat
  else if c.computed then do
    modify fun c => { c with corrupted := shaStateError.toNat }
    pure shaStateError.toNat
  else if c.corrupted ≠ 0 then pure c.corrupted
  else do
    shaInputLoop F octets
    pure shaSuccess.toNat

def shaMasks : List UInt8 := [0x00, 0x80, 0xC0, 0xE0, 0xF0, 0xF8, 0xFC, 0xFE]

def shaMarkbit : List UInt8 := [0x80, 0x40, 0x20, 0x10, 0x08, 0x04, 0x02, 0x01]

def shaFinalBits (messageBits : UInt8) (length : ℕ) : Proc (ShaContext η ℓ n) ℕ := do
  let c ← get
  if length = 0 then pure shaSuccess.toNat
  else if c.computed ∨ 8 ≤ length then do
    modify fun c => { c with corrupted := shaStateError.toNat }
    pure shaStateError.toNat
  else if c.corrupted ≠ 0 then pure c.corrupted
  else do
    shaAddLength F length
    shaFinalize F ((messageBits &&& shaMasks.getD length 0) ||| shaMarkbit.getD length 0)
    pure shaSuccess.toNat

def shaResultN (hashSize : ℕ) : Proc (ShaContext η ℓ n) (ℕ × List UInt8) := do
  let c ← get
  if c.corrupted ≠ 0 then pure (c.corrupted, [])
  else do
    if c.computed then pure ⟨⟩ else shaFinalize F 0x80
    let c ← get
    pure (shaSuccess.toNat, (List.range hashSize).map (F.resultOctet c.intermediateHash))

end Family

/-! ## Words -/

section Words

variable {w : ℕ}

def shaCh (x y z : BitVec w) : BitVec w := (x &&& y) ^^^ (~~~x &&& z)

def shaMaj (x y z : BitVec w) : BitVec w := (x &&& y) ^^^ (x &&& z) ^^^ (y &&& z)

def shaParity (x y z : BitVec w) : BitVec w := x ^^^ y ^^^ z

/-- `SHA1_ROTL`, `SHA256_ROTL` -/
def shaRotl (bits : ℕ) (word : BitVec w) : BitVec w := word <<< bits ||| word >>> (w - bits)

/-- `SHA256_ROTR`, `SHA512_ROTR` -/
def shaRotr (bits : ℕ) (word : BitVec w) : BitVec w := word >>> bits ||| word <<< (w - bits)

/-- `Length_Low` and `Length_High` -/
structure ShaLength (w : ℕ) where
  low : BitVec w
  high : BitVec w
  deriving DecidableEq

/-- `SHA1AddLength`, `SHA224_256AddLength`, `SHA384_512AddLength` -/
def ShaLength.add (len : ShaLength w) (length : ℕ) : ShaLength w × Bool :=
  let low := len.low + BitVec.ofNat w length
  if low < len.low then (⟨low, len.high + 1⟩, len.high + 1 == 0) else (⟨low, len.high⟩, false)

/-- An octet of a block as a word. -/
def blockOctet (w : ℕ) (block : List UInt8) (i : ℕ) : BitVec w :=
  BitVec.ofNat w (block.getD i 0).toNat

/-- `(uint8_t) (word >> bits)` -/
def wordOctet (word : BitVec w) (bits : ℕ) : UInt8 := UInt8.ofNat (word >>> bits).toNat

end Words

def loadWord32 (block : List UInt8) (i : ℕ) : BitVec 32 :=
  blockOctet 32 block i <<< 24 ||| blockOctet 32 block (i + 1) <<< 16
    ||| blockOctet 32 block (i + 2) <<< 8 ||| blockOctet 32 block (i + 3)

def loadWord64 (block : List UInt8) (i : ℕ) : BitVec 64 :=
  blockOctet 64 block i <<< 56 ||| blockOctet 64 block (i + 1) <<< 48
    ||| blockOctet 64 block (i + 2) <<< 40 ||| blockOctet 64 block (i + 3) <<< 32
    ||| blockOctet 64 block (i + 4) <<< 24 ||| blockOctet 64 block (i + 5) <<< 16
    ||| blockOctet 64 block (i + 6) <<< 8 ||| blockOctet 64 block (i + 7)

def ShaLength.octets32 (len : ShaLength 32) : List UInt8 :=
  [wordOctet len.high 24, wordOctet len.high 16, wordOctet len.high 8, wordOctet len.high 0,
   wordOctet len.low 24, wordOctet len.low 16, wordOctet len.low 8, wordOctet len.low 0]

def ShaLength.octets64 (len : ShaLength 64) : List UInt8 :=
  [wordOctet len.high 56, wordOctet len.high 48, wordOctet len.high 40, wordOctet len.high 32,
   wordOctet len.high 24, wordOctet len.high 16, wordOctet len.high 8, wordOctet len.high 0,
   wordOctet len.low 56, wordOctet len.low 48, wordOctet len.low 40, wordOctet len.low 32,
   wordOctet len.low 24, wordOctet len.low 16, wordOctet len.low 8, wordOctet len.low 0]

/-! ## SHA-1 -/

/-- `W` with its first 16 words, and the words from `t = 16` on. -/
def sha1Words (block : List UInt8) : List (BitVec 32) :=
  (List.range' 16 64).foldl (fun W t => W ++ [shaRotl 1 (W.getD (t - 3) 0 ^^^ W.getD (t - 8) 0
      ^^^ W.getD (t - 14) 0 ^^^ W.getD (t - 16) 0)])
    ((List.range 16).map fun t => loadWord32 block (t * 4))

/-- The body of the four loops, over `A` to `E`. -/
def sha1Step (f : BitVec 32 → BitVec 32 → BitVec 32 → BitVec 32) (K : BitVec 32)
    (W : List (BitVec 32)) (v : Vector (BitVec 32) 5) (t : ℕ) : Vector (BitVec 32) 5 :=
  let temp := shaRotl 5 v[0] + f v[1] v[2] v[3] + v[4] + W.getD t 0 + K
  #v[temp, v[0], shaRotl 30 v[1], v[2], v[3]]

def sha1ProcessMessageBlock (H : Vector (BitVec 32) 5) (block : List UInt8) :
    Vector (BitVec 32) 5 :=
  let W := sha1Words block
  let v := (List.range' 0 20).foldl (sha1Step shaCh 0x5A827999 W) H
  let v := (List.range' 20 20).foldl (sha1Step shaParity 0x6ED9EBA1 W) v
  let v := (List.range' 40 20).foldl (sha1Step shaMaj 0x8F1BBCDC W) v
  let v := (List.range' 60 20).foldl (sha1Step shaParity 0xCA62C1D6 W) v
  #v[H[0] + v[0], H[1] + v[1], H[2] + v[2], H[3] + v[3], H[4] + v[4]]

def sha1Family : ShaFamily (Vector (BitVec 32) 5) (ShaLength 32) 64 where
  lengthSize := 8
  noLength := ⟨0, 0⟩
  addLength := ShaLength.add
  lengthOctets := ShaLength.octets32
  processMessageBlock := sha1ProcessMessageBlock
  resultOctet H i := wordOctet (H.toList.getD (i / 4) 0) (8 * (3 - i % 4))

abbrev Sha1Context := ShaContext (Vector (BitVec 32) 5) (ShaLength 32) 64

def sha1Reset : Proc Sha1Context ℕ :=
  shaReset sha1Family #v[0x67452301, 0xEFCDAB89, 0x98BADCFE, 0x10325476, 0xC3D2E1F0]

def sha1Input : List UInt8 → Proc Sha1Context ℕ := shaInput sha1Family

def sha1FinalBits : UInt8 → ℕ → Proc Sha1Context ℕ := shaFinalBits sha1Family

def sha1Result : Proc Sha1Context (ℕ × List UInt8) := shaResultN sha1Family 20

/-! ## SHA-224, SHA-256, SHA-384, SHA-512 -/

/-- The macros, the table and the words of `sha224-256.c` and of `sha384-512.c`. -/
structure Sha2File (w : ℕ) where
  SIGMA0 : BitVec w → BitVec w
  SIGMA1 : BitVec w → BitVec w
  sigma0 : BitVec w → BitVec w
  sigma1 : BitVec w → BitVec w
  K : List (BitVec w)
  loadWord : List UInt8 → ℕ → BitVec w

section Sha2

variable {w : ℕ} (P : Sha2File w)

/-- `W` with its first 16 words, and the words from `t = 16` on. -/
def sha2Words (block : List UInt8) : List (BitVec w) :=
  (List.range' 16 (P.K.length - 16)).foldl (fun W t => W ++ [P.sigma1 (W.getD (t - 2) 0)
      + W.getD (t - 7) 0 + P.sigma0 (W.getD (t - 15) 0) + W.getD (t - 16) 0])
    ((List.range 16).map fun t => P.loadWord block (t * (w / 8)))

/-- The body of the loop over `A` to `H`. -/
def sha2Step (W : List (BitVec w)) (v : Vector (BitVec w) 8) (t : ℕ) : Vector (BitVec w) 8 :=
  let temp1 := v[7] + P.SIGMA1 v[4] + shaCh v[4] v[5] v[6] + P.K.getD t 0 + W.getD t 0
  let temp2 := P.SIGMA0 v[0] + shaMaj v[0] v[1] v[2]
  #v[temp1 + temp2, v[0], v[1], v[2], v[3] + temp1, v[4], v[5], v[6]]

def sha2ProcessMessageBlock (H : Vector (BitVec w) 8) (block : List UInt8) :
    Vector (BitVec w) 8 :=
  let W := sha2Words P block
  let v := (List.range P.K.length).foldl (sha2Step P W) H
  #v[H[0] + v[0], H[1] + v[1], H[2] + v[2], H[3] + v[3], H[4] + v[4], H[5] + v[5], H[6] + v[6],
    H[7] + v[7]]

end Sha2

def sha256K : List (BitVec 32) :=
  [0x428a2f98, 0x71374491, 0xb5c0fbcf, 0xe9b5dba5, 0x3956c25b, 0x59f111f1, 0x923f82a4, 0xab1c5ed5,
   0xd807aa98, 0x12835b01, 0x243185be, 0x550c7dc3, 0x72be5d74, 0x80deb1fe, 0x9bdc06a7, 0xc19bf174,
   0xe49b69c1, 0xefbe4786, 0x0fc19dc6, 0x240ca1cc, 0x2de92c6f, 0x4a7484aa, 0x5cb0a9dc, 0x76f988da,
   0x983e5152, 0xa831c66d, 0xb00327c8, 0xbf597fc7, 0xc6e00bf3, 0xd5a79147, 0x06ca6351, 0x14292967,
   0x27b70a85, 0x2e1b2138, 0x4d2c6dfc, 0x53380d13, 0x650a7354, 0x766a0abb, 0x81c2c92e, 0x92722c85,
   0xa2bfe8a1, 0xa81a664b, 0xc24b8b70, 0xc76c51a3, 0xd192e819, 0xd6990624, 0xf40e3585, 0x106aa070,
   0x19a4c116, 0x1e376c08, 0x2748774c, 0x34b0bcb5, 0x391c0cb3, 0x4ed8aa4a, 0x5b9cca4f, 0x682e6ff3,
   0x748f82ee, 0x78a5636f, 0x84c87814, 0x8cc70208, 0x90befffa, 0xa4506ceb, 0xbef9a3f7, 0xc67178f2]

def sha224256File : Sha2File 32 where
  SIGMA0 word := shaRotr 2 word ^^^ shaRotr 13 word ^^^ shaRotr 22 word
  SIGMA1 word := shaRotr 6 word ^^^ shaRotr 11 word ^^^ shaRotr 25 word
  sigma0 word := shaRotr 7 word ^^^ shaRotr 18 word ^^^ word >>> 3
  sigma1 word := shaRotr 17 word ^^^ shaRotr 19 word ^^^ word >>> 10
  K := sha256K
  loadWord := loadWord32

def sha224256Family : ShaFamily (Vector (BitVec 32) 8) (ShaLength 32) 64 where
  lengthSize := 8
  noLength := ⟨0, 0⟩
  addLength := ShaLength.add
  lengthOctets := ShaLength.octets32
  processMessageBlock := sha2ProcessMessageBlock sha224256File
  resultOctet H i := wordOctet (H.toList.getD (i / 4) 0) (8 * (3 - i % 4))

abbrev Sha256Context := ShaContext (Vector (BitVec 32) 8) (ShaLength 32) 64

def sha224H0 : Vector (BitVec 32) 8 :=
  #v[0xC1059ED8, 0x367CD507, 0x3070DD17, 0xF70E5939, 0xFFC00B31, 0x68581511, 0x64F98FA7,
    0xBEFA4FA4]

def sha256H0 : Vector (BitVec 32) 8 :=
  #v[0x6A09E667, 0xBB67AE85, 0x3C6EF372, 0xA54FF53A, 0x510E527F, 0x9B05688C, 0x1F83D9AB,
    0x5BE0CD19]

def sha224Reset : Proc Sha256Context ℕ := shaReset sha224256Family sha224H0

def sha256Reset : Proc Sha256Context ℕ := shaReset sha224256Family sha256H0

def sha256Input : List UInt8 → Proc Sha256Context ℕ := shaInput sha224256Family

def sha256FinalBits : UInt8 → ℕ → Proc Sha256Context ℕ := shaFinalBits sha224256Family

def sha224Input : List UInt8 → Proc Sha256Context ℕ := sha256Input

def sha224FinalBits : UInt8 → ℕ → Proc Sha256Context ℕ := sha256FinalBits

def sha224Result : Proc Sha256Context (ℕ × List UInt8) := shaResultN sha224256Family 28

def sha256Result : Proc Sha256Context (ℕ × List UInt8) := shaResultN sha224256Family 32

def sha512K : List (BitVec 64) :=
  [0x428A2F98D728AE22, 0x7137449123EF65CD, 0xB5C0FBCFEC4D3B2F, 0xE9B5DBA58189DBBC,
   0x3956C25BF348B538, 0x59F111F1B605D019, 0x923F82A4AF194F9B, 0xAB1C5ED5DA6D8118,
   0xD807AA98A3030242, 0x12835B0145706FBE, 0x243185BE4EE4B28C, 0x550C7DC3D5FFB4E2,
   0x72BE5D74F27B896F, 0x80DEB1FE3B1696B1, 0x9BDC06A725C71235, 0xC19BF174CF692694,
   0xE49B69C19EF14AD2, 0xEFBE4786384F25E3, 0x0FC19DC68B8CD5B5, 0x240CA1CC77AC9C65,
   0x2DE92C6F592B0275, 0x4A7484AA6EA6E483, 0x5CB0A9DCBD41FBD4, 0x76F988DA831153B5,
   0x983E5152EE66DFAB, 0xA831C66D2DB43210, 0xB00327C898FB213F, 0xBF597FC7BEEF0EE4,
   0xC6E00BF33DA88FC2, 0xD5A79147930AA725, 0x06CA6351E003826F, 0x142929670A0E6E70,
   0x27B70A8546D22FFC, 0x2E1B21385C26C926, 0x4D2C6DFC5AC42AED, 0x53380D139D95B3DF,
   0x650A73548BAF63DE, 0x766A0ABB3C77B2A8, 0x81C2C92E47EDAEE6, 0x92722C851482353B,
   0xA2BFE8A14CF10364, 0xA81A664BBC423001, 0xC24B8B70D0F89791, 0xC76C51A30654BE30,
   0xD192E819D6EF5218, 0xD69906245565A910, 0xF40E35855771202A, 0x106AA07032BBD1B8,
   0x19A4C116B8D2D0C8, 0x1E376C085141AB53, 0x2748774CDF8EEB99, 0x34B0BCB5E19B48A8,
   0x391C0CB3C5C95A63, 0x4ED8AA4AE3418ACB, 0x5B9CCA4F7763E373, 0x682E6FF3D6B2B8A3,
   0x748F82EE5DEFB2FC, 0x78A5636F43172F60, 0x84C87814A1F0AB72, 0x8CC702081A6439EC,
   0x90BEFFFA23631E28, 0xA4506CEBDE82BDE9, 0xBEF9A3F7B2C67915, 0xC67178F2E372532B,
   0xCA273ECEEA26619C, 0xD186B8C721C0C207, 0xEADA7DD6CDE0EB1E, 0xF57D4F7FEE6ED178,
   0x06F067AA72176FBA, 0x0A637DC5A2C898A6, 0x113F9804BEF90DAE, 0x1B710B35131C471B,
   0x28DB77F523047D84, 0x32CAAB7B40C72493, 0x3C9EBE0A15C9BEBC, 0x431D67C49C100D4C,
   0x4CC5D4BECB3E42B6, 0x597F299CFC657E2A, 0x5FCB6FAB3AD6FAEC, 0x6C44198C4A475817]

def sha384512File : Sha2File 64 where
  SIGMA0 word := shaRotr 28 word ^^^ shaRotr 34 word ^^^ shaRotr 39 word
  SIGMA1 word := shaRotr 14 word ^^^ shaRotr 18 word ^^^ shaRotr 41 word
  sigma0 word := shaRotr 1 word ^^^ shaRotr 8 word ^^^ word >>> 7
  sigma1 word := shaRotr 19 word ^^^ shaRotr 61 word ^^^ word >>> 6
  K := sha512K
  loadWord := loadWord64

def sha384512Family : ShaFamily (Vector (BitVec 64) 8) (ShaLength 64) 128 where
  lengthSize := 16
  noLength := ⟨0, 0⟩
  addLength := ShaLength.add
  lengthOctets := ShaLength.octets64
  processMessageBlock := sha2ProcessMessageBlock sha384512File
  resultOctet H i := wordOctet (H.toList.getD (i / 8) 0) (8 * (7 - i % 8))

abbrev Sha512Context := ShaContext (Vector (BitVec 64) 8) (ShaLength 64) 128

def sha384H0 : Vector (BitVec 64) 8 :=
  #v[0xCBBB9D5DC1059ED8, 0x629A292A367CD507, 0x9159015A3070DD17, 0x152FECD8F70E5939,
    0x67332667FFC00B31, 0x8EB44A8768581511, 0xDB0C2E0D64F98FA7, 0x47B5481DBEFA4FA4]

def sha512H0 : Vector (BitVec 64) 8 :=
  #v[0x6A09E667F3BCC908, 0xBB67AE8584CAA73B, 0x3C6EF372FE94F82B, 0xA54FF53A5F1D36F1,
    0x510E527FADE682D1, 0x9B05688C2B3E6C1F, 0x1F83D9ABFB41BD6B, 0x5BE0CD19137E2179]

def sha384Reset : Proc Sha512Context ℕ := shaReset sha384512Family sha384H0

def sha512Reset : Proc Sha512Context ℕ := shaReset sha384512Family sha512H0

def sha512Input : List UInt8 → Proc Sha512Context ℕ := shaInput sha384512Family

def sha512FinalBits : UInt8 → ℕ → Proc Sha512Context ℕ := shaFinalBits sha384512Family

def sha384Input : List UInt8 → Proc Sha512Context ℕ := sha512Input

def sha384FinalBits : UInt8 → ℕ → Proc Sha512Context ℕ := sha512FinalBits

def sha384Result : Proc Sha512Context (ℕ × List UInt8) := shaResultN sha384512Family 48

def sha512Result : Proc Sha512Context (ℕ × List UInt8) := shaResultN sha384512Family 64

end YkPers
