import YkPers.Sha

/-!
# SHA-384 and SHA-512 in 32-bit arithmetic, `sha384-512.c`

The branch of the file under `USE_32BIT_ONLY`: a word of 64 bits is an array of two, the high one
first, and the length of a message one of four. `modified` is `USE_MODIFIED_MACROS`.
-/

namespace YkPers

/-! ## Words of two -/

structure WordPair where
  w0 : BitVec 32
  w1 : BitVec 32

namespace WordPair

def shr (bits : ℕ) (word : WordPair) : WordPair where
  w0 := if bits < 32 then word.w0 >>> bits else 0
  w1 := if bits > 32 then word.w0 >>> (bits - 32)
    else if bits = 32 then word.w0
    else word.w0 <<< (32 - bits) ||| word.w1 >>> bits

def shl (bits : ℕ) (word : WordPair) : WordPair where
  w0 := if bits > 32 then word.w1 <<< (bits - 32)
    else if bits = 32 then word.w1
    else word.w0 <<< bits ||| word.w1 >>> (32 - bits)
  w1 := if bits < 32 then word.w1 <<< bits else 0

def or (word1 word2 : WordPair) : WordPair := ⟨word1.w0 ||| word2.w0, word1.w1 ||| word2.w1⟩

def xor (word1 word2 : WordPair) : WordPair := ⟨word1.w0 ^^^ word2.w0, word1.w1 ^^^ word2.w1⟩

def and (word1 word2 : WordPair) : WordPair := ⟨word1.w0 &&& word2.w0, word1.w1 &&& word2.w1⟩

def tilda (word : WordPair) : WordPair := ⟨~~~word.w0, ~~~word.w1⟩

/-- A comparison in arithmetic -/
def carry (c : Prop) [Decidable c] : BitVec 32 := if c then 1 else 0

def add (word1 word2 : WordPair) : WordPair :=
  let ret1 := word1.w1 + word2.w1
  ⟨word1.w0 + word2.w0 + carry (ret1 < word1.w1), ret1⟩

def addTo2 (word1 word2 : WordPair) : WordPair :=
  let temp := word1.w1
  let w1 := word1.w1 + word2.w1
  ⟨word1.w0 + (word2.w0 + carry (w1 < temp)), w1⟩

def rotr (bits : ℕ) (word : WordPair) : WordPair := (shr bits word).or (shl (64 - bits) word)

def SIGMA0 (word : WordPair) : WordPair :=
  (rotr 28 word).xor ((rotr 34 word).xor (rotr 39 word))

def SIGMA1 (word : WordPair) : WordPair :=
  (rotr 14 word).xor ((rotr 18 word).xor (rotr 41 word))

def sigma0 (word : WordPair) : WordPair := (rotr 1 word).xor ((rotr 8 word).xor (shr 7 word))

def sigma1 (word : WordPair) : WordPair := (rotr 19 word).xor ((rotr 61 word).xor (shr 6 word))

def ch (modified : Bool) (x y z : WordPair) : WordPair :=
  if modified then
    ⟨(x.w0 &&& (y.w0 ^^^ z.w0)) ^^^ z.w0, (x.w1 &&& (y.w1 ^^^ z.w1)) ^^^ z.w1⟩
  else (x.and y).xor (x.tilda.and z)

def maj (modified : Bool) (x y z : WordPair) : WordPair :=
  if modified then
    ⟨(x.w0 &&& (y.w0 ||| z.w0)) ||| (y.w0 &&& z.w0), (x.w1 &&& (y.w1 ||| z.w1)) ||| (y.w1 &&& z.w1)⟩
  else (x.and y).xor ((x.and z).xor (y.and z))

/-- The word at `i` of an array -/
def pair (words : List (BitVec 32)) (i : ℕ) : WordPair := ⟨words.getD i 0, words.getD (i + 1) 0⟩

end WordPair

/-! ## Lengths of four words -/

structure ShaLength4 where
  l0 : BitVec 32
  l1 : BitVec 32
  l2 : BitVec 32
  l3 : BitVec 32

namespace ShaLength4

open WordPair (carry)

def addTo4 (word1 word2 : ShaLength4) : ShaLength4 :=
  let l3 := word1.l3 + word2.l3
  let l2 := word1.l2 + (word2.l2 + carry (l3 < word1.l3))
  let l1 := word1.l1 + (word2.l1 + carry (l2 < word1.l2))
  ⟨word1.l0 + (word2.l0 + carry (l1 < word1.l1)), l1, l2, l3⟩

/-- `SHA384_512AddLength` -/
def addLength (len : ShaLength4) (length : ℕ) : ShaLength4 × Bool :=
  let len := len.addTo4 ⟨0, 0, 0, BitVec.ofNat 32 length⟩
  (len, len.l3 = 0 ∧ len.l2 = 0 ∧ len.l1 = 0 ∧ len.l0 < 8)

def octets (len : ShaLength4) : List UInt8 :=
  [len.l0, len.l1, len.l2, len.l3].flatMap fun l =>
    [wordOctet l 24, wordOctet l 16, wordOctet l 8, wordOctet l 0]

end ShaLength4

/-! ## The functions of the file -/

open WordPair (add)

def sha512K32 : List (BitVec 32) :=
  [0x428A2F98, 0xD728AE22, 0x71374491, 0x23EF65CD, 0xB5C0FBCF, 0xEC4D3B2F, 0xE9B5DBA5, 0x8189DBBC,
   0x3956C25B, 0xF348B538, 0x59F111F1, 0xB605D019, 0x923F82A4, 0xAF194F9B, 0xAB1C5ED5, 0xDA6D8118,
   0xD807AA98, 0xA3030242, 0x12835B01, 0x45706FBE, 0x243185BE, 0x4EE4B28C, 0x550C7DC3, 0xD5FFB4E2,
   0x72BE5D74, 0xF27B896F, 0x80DEB1FE, 0x3B1696B1, 0x9BDC06A7, 0x25C71235, 0xC19BF174, 0xCF692694,
   0xE49B69C1, 0x9EF14AD2, 0xEFBE4786, 0x384F25E3, 0x0FC19DC6, 0x8B8CD5B5, 0x240CA1CC, 0x77AC9C65,
   0x2DE92C6F, 0x592B0275, 0x4A7484AA, 0x6EA6E483, 0x5CB0A9DC, 0xBD41FBD4, 0x76F988DA, 0x831153B5,
   0x983E5152, 0xEE66DFAB, 0xA831C66D, 0x2DB43210, 0xB00327C8, 0x98FB213F, 0xBF597FC7, 0xBEEF0EE4,
   0xC6E00BF3, 0x3DA88FC2, 0xD5A79147, 0x930AA725, 0x06CA6351, 0xE003826F, 0x14292967, 0x0A0E6E70,
   0x27B70A85, 0x46D22FFC, 0x2E1B2138, 0x5C26C926, 0x4D2C6DFC, 0x5AC42AED, 0x53380D13, 0x9D95B3DF,
   0x650A7354, 0x8BAF63DE, 0x766A0ABB, 0x3C77B2A8, 0x81C2C92E, 0x47EDAEE6, 0x92722C85, 0x1482353B,
   0xA2BFE8A1, 0x4CF10364, 0xA81A664B, 0xBC423001, 0xC24B8B70, 0xD0F89791, 0xC76C51A3, 0x0654BE30,
   0xD192E819, 0xD6EF5218, 0xD6990624, 0x5565A910, 0xF40E3585, 0x5771202A, 0x106AA070, 0x32BBD1B8,
   0x19A4C116, 0xB8D2D0C8, 0x1E376C08, 0x5141AB53, 0x2748774C, 0xDF8EEB99, 0x34B0BCB5, 0xE19B48A8,
   0x391C0CB3, 0xC5C95A63, 0x4ED8AA4A, 0xE3418ACB, 0x5B9CCA4F, 0x7763E373, 0x682E6FF3, 0xD6B2B8A3,
   0x748F82EE, 0x5DEFB2FC, 0x78A5636F, 0x43172F60, 0x84C87814, 0xA1F0AB72, 0x8CC70208, 0x1A6439EC,
   0x90BEFFFA, 0x23631E28, 0xA4506CEB, 0xDE82BDE9, 0xBEF9A3F7, 0xB2C67915, 0xC67178F2, 0xE372532B,
   0xCA273ECE, 0xEA26619C, 0xD186B8C7, 0x21C0C207, 0xEADA7DD6, 0xCDE0EB1E, 0xF57D4F7F, 0xEE6ED178,
   0x06F067AA, 0x72176FBA, 0x0A637DC5, 0xA2C898A6, 0x113F9804, 0xBEF90DAE, 0x1B710B35, 0x131C471B,
   0x28DB77F5, 0x23047D84, 0x32CAAB7B, 0x40C72493, 0x3C9EBE0A, 0x15C9BEBC, 0x431D67C4, 0x9C100D4C,
   0x4CC5D4BE, 0xCB3E42B6, 0x597F299C, 0xFC657E2A, 0x5FCB6FAB, 0x3AD6FAEC, 0x6C44198C, 0x4A475817]

/-- `W`, of which each turn adds two. -/
def sha512Words32 (block : List UInt8) : List (BitVec 32) :=
  (List.range' 16 64).foldl (fun W t =>
      let temp2 := add (WordPair.pair W (2 * (t - 2))).sigma1 (WordPair.pair W (2 * (t - 7)))
      let temp3 := add (WordPair.pair W (2 * (t - 15))).sigma0 (WordPair.pair W (2 * (t - 16)))
      W ++ [(add temp2 temp3).w0, (add temp2 temp3).w1])
    ((List.range 16).flatMap fun t => [loadWord32 block (8 * t), loadWord32 block (8 * t + 4)])

/-- The variables `A` to `H` of the loop. -/
abbrev loopWords : ℕ := 8

def sha512Step32 (modified : Bool) (W : List (BitVec 32)) (v : Vector WordPair loopWords) (t : ℕ) :
    Vector WordPair loopWords :=
  let temp2 := add v[7] v[4].SIGMA1
  let temp4 := add temp2 (WordPair.ch modified v[4] v[5] v[6])
  let temp5 := add (WordPair.pair sha512K32 (2 * t)) (WordPair.pair W (2 * t))
  let temp1 := add temp4 temp5
  let temp2 := add v[0].SIGMA0 (WordPair.maj modified v[0] v[1] v[2])
  #v[add temp1 temp2, v[0], v[1], v[2], add v[3] temp1, v[4], v[5], v[6]]

/-- The words of `Intermediate_Hash`, two and two. -/
def hashPair (H : Vector (BitVec 32) 16) (i : Fin 8) : WordPair :=
  ⟨H[2 * i.1], H[2 * i.1 + 1]⟩

def hashOfPairs (f : Fin 8 → WordPair) : Vector (BitVec 32) 16 :=
  Vector.ofFn fun i =>
    if i.1 % 2 = 0 then (f ⟨i.1 / 2, by omega⟩).w0 else (f ⟨i.1 / 2, by omega⟩).w1

def sha512ProcessMessageBlock32 (modified : Bool) (H : Vector (BitVec 32) 16)
    (block : List UInt8) : Vector (BitVec 32) 16 :=
  let W := sha512Words32 block
  let v : Vector WordPair 8 :=
    (List.range 80).foldl (sha512Step32 modified W) (Vector.ofFn (hashPair H))
  hashOfPairs fun i => (hashPair H i).addTo2 v[i.1]

def sha384512Family32 (modified : Bool) : ShaFamily (Vector (BitVec 32) 16) ShaLength4 128 where
  lengthSize := 16
  noLength := ⟨0, 0, 0, 0⟩
  addLength := ShaLength4.addLength
  lengthOctets := ShaLength4.octets
  processMessageBlock := sha512ProcessMessageBlock32 modified
  resultOctet H i := wordOctet (H.toList.getD (i / 4) 0) (8 * (3 - i % 4))

def sha384H032 : Vector (BitVec 32) 16 :=
  #v[0xCBBB9D5D, 0xC1059ED8, 0x629A292A, 0x367CD507, 0x9159015A, 0x3070DD17, 0x152FECD8,
    0xF70E5939, 0x67332667, 0xFFC00B31, 0x8EB44A87, 0x68581511, 0xDB0C2E0D, 0x64F98FA7,
    0x47B5481D, 0xBEFA4FA4]

def sha512H032 : Vector (BitVec 32) 16 :=
  #v[0x6A09E667, 0xF3BCC908, 0xBB67AE85, 0x84CAA73B, 0x3C6EF372, 0xFE94F82B, 0xA54FF53A,
    0x5F1D36F1, 0x510E527F, 0xADE682D1, 0x9B05688C, 0x2B3E6C1F, 0x1F83D9AB, 0xFB41BD6B,
    0x5BE0CD19, 0x137E2179]

end YkPers
