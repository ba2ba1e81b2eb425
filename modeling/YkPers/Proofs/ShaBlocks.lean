import YkPers.Lib.SecureHash
import YkPers.Proofs.Sha

/-!
# The blocks of the five hashes are those of the standard

The shifts of `sha1.c`, `sha224-256.c` and `sha384-512.c` are rotations, their loops over `W` give
the words of the standard, and their tables are the bits of the roots of the primes. With the
lengths in two words, the three files are families that compute it (`sha1_computes`,
`sha224256_computes`, `sha384512_computes`).
-/

namespace YkPers

open BlockHash SecureHash

/-! ## Words -/

section Words

variable {w : ℕ}

theorem shaRotl_eq {r : ℕ} (h : r < w) (x : BitVec w) : shaRotl r x = x.rotateLeft r := by
  rw [shaRotl, BitVec.rotateLeft_def, Nat.mod_eq_of_lt h]

theorem shaRotr_eq {r : ℕ} (h : r < w) (x : BitVec w) : shaRotr r x = x.rotateRight r := by
  rw [shaRotr, BitVec.rotateRight_def, Nat.mod_eq_of_lt h]

theorem word_add_right_comm (x y z : BitVec w) : x + y + z = x + z + y := by
  rw [BitVec.add_assoc, BitVec.add_comm y, BitVec.add_assoc]

theorem shiftLeft_or_octet (v : ℕ) (b : UInt8) :
    BitVec.ofNat w v <<< 8 ||| BitVec.ofNat w b.toNat = BitVec.ofNat w (256 * v + b.toNat) := by
  have hor : 256 * v + b.toNat = v <<< 8 ||| b.toNat := by
    rw [← Nat.shiftLeft_add_eq_or_of_lt b.toNat_lt, Nat.shiftLeft_eq, Nat.mul_comm]
  apply BitVec.eq_of_toNat_eq
  rw [BitVec.toNat_or, BitVec.toNat_shiftLeft, BitVec.toNat_ofNat, BitVec.toNat_ofNat,
    BitVec.toNat_ofNat, hor, Nat.or_mod_two_pow, Nat.shiftLeft_eq, Nat.shiftLeft_eq,
    Nat.mod_mul_mod]

theorem take_drop_eq_map (block : List UInt8) {i n : ℕ} (h : i + n ≤ block.length) :
    (block.drop i).take n = (List.range n).map fun j => block.getD (i + j) 0 := by
  refine List.ext_getElem? fun j => ?_
  rcases Nat.lt_or_ge j n with hj | hj
  · rw [List.getElem?_take_of_lt hj, List.getElem?_drop, List.getElem?_map, List.getElem?_range hj,
      Option.map_some, List.getD_eq_getElem?_getD, List.getElem?_eq_getElem (by omega),
      Option.getD_some]
  · rw [List.getElem?_eq_none (by rw [List.length_take]; omega),
      List.getElem?_eq_none (by rw [List.length_map, List.length_range]; omega)]

theorem loadWord32_ofNat (block : List UInt8) (i : ℕ) : loadWord32 block i
    = BitVec.ofNat 32 (bytesValue ((List.range 4).map fun j => block.getD (i + j) 0)) := by
  simp [List.range_succ, bytesValue, ← shiftLeft_or_octet, BitVec.shiftLeft_or_distrib,
    ← BitVec.shiftLeft_add, loadWord32, blockOctet]

theorem loadWord64_ofNat (block : List UInt8) (i : ℕ) : loadWord64 block i
    = BitVec.ofNat 64 (bytesValue ((List.range 8).map fun j => block.getD (i + j) 0)) := by
  simp [List.range_succ, bytesValue, ← shiftLeft_or_octet, BitVec.shiftLeft_or_distrib,
    ← BitVec.shiftLeft_add, loadWord64, blockOctet]

theorem loadWord32_eq {block : List UInt8} {t : ℕ} (h : t * 4 + 4 ≤ block.length) :
    loadWord32 block (t * 4) = blockWord 32 block t := by
  rw [blockWord, take_drop_eq_map block h]
  exact loadWord32_ofNat block (t * 4)

theorem loadWord64_eq {block : List UInt8} {t : ℕ} (h : t * 8 + 8 ≤ block.length) :
    loadWord64 block (t * 8) = blockWord 64 block t := by
  rw [blockWord, take_drop_eq_map block h]
  exact loadWord64_ofNat block (t * 8)

/-- The octets of a result, the words one after the other. -/
theorem getElem?_flatMap_wordBytes {b : ℕ} (hw : w / 8 = b) (hb : 0 < b) :
    ∀ (l : List (BitVec w)) {i : ℕ}, i < l.length * b →
      (l.flatMap wordBytes)[i]? = some (wordOctet (l.getD (i / b) 0) (8 * (b - 1 - i % b)))
  | [], i, h => by simp at h
  | x :: l, i, h => by
    have hlen : (wordBytes x).length = b := by rw [wordBytes, length_beBytes, hw]
    rw [List.flatMap_cons]
    rcases Nat.lt_or_ge i b with hi | hi
    · rw [List.getElem?_append_left (by omega), Nat.div_eq_of_lt hi, Nat.mod_eq_of_lt hi, wordBytes,
        hw, beBytes, List.getElem?_map, List.getElem?_range hi]
      rfl
    · rw [List.length_cons, Nat.succ_mul] at h
      rw [List.getElem?_append_right (by omega), hlen,
        getElem?_flatMap_wordBytes hw hb l (by omega), Nat.div_eq_sub_div hb hi,
        List.getD_cons_succ, Nat.mod_eq_sub_mod hi]

theorem map_wordOctet {k b size : ℕ} (hw : w / 8 = b) (hb : 0 < b) (H : Vector (BitVec w) k)
    (hsize : size ≤ k * b) :
    (List.range size).map (fun i => wordOctet (H.toList.getD (i / b) 0) (8 * (b - 1 - i % b)))
      = (H.toList.flatMap wordBytes).take size := by
  refine List.ext_getElem? fun i => ?_
  rcases Nat.lt_or_ge i size with hi | hi
  · rw [List.getElem?_take_of_lt hi, getElem?_flatMap_wordBytes hw hb _
      (by rw [Vector.length_toList]; omega), List.getElem?_map, List.getElem?_range hi]
    rfl
  · rw [List.getElem?_eq_none (by rw [List.length_map, List.length_range]; omega),
      List.getElem?_eq_none (by rw [List.length_take]; omega)]

/-! ## Lengths -/

def ShaLength.value (len : ShaLength w) : ℕ := len.high.toNat * 2 ^ w + len.low.toNat

theorem ShaLength.toNat_low {len : ShaLength w} {m : ℕ} (hm : m < 2 ^ w) :
    (len.low + BitVec.ofNat w m).toNat
      = if len.low.toNat + m < 2 ^ w then len.low.toNat + m else len.low.toNat + m - 2 ^ w := by
  have hlow := len.low.isLt
  rw [BitVec.toNat_add, BitVec.toNat_ofNat, Nat.mod_eq_of_lt hm]
  split_ifs with h
  · exact Nat.mod_eq_of_lt h
  · rw [Nat.mod_eq_sub_mod (Nat.not_lt.1 h), Nat.mod_eq_of_lt (by omega)]

theorem ShaLength.add_noCarry {len : ShaLength w} {m : ℕ} (hm : m < 2 ^ w)
    (h : len.low.toNat + m < 2 ^ w) :
    len.add m = (⟨len.low + BitVec.ofNat w m, len.high⟩, false) := by
  rw [add]
  refine if_neg fun hlt => ?_
  rw [BitVec.lt_def, toNat_low hm, if_pos h] at hlt
  omega

theorem ShaLength.toNat_high (len : ShaLength w) (hw : 1 < 2 ^ w) :
    (len.high + 1).toNat = if len.high.toNat + 1 = 2 ^ w then 0 else len.high.toNat + 1 := by
  have hhigh := len.high.isLt
  rw [BitVec.ofNat_eq_ofNat, BitVec.toNat_add, BitVec.toNat_ofNat, Nat.mod_eq_of_lt hw]
  split_ifs with h
  · rw [h, Nat.mod_self]
  · exact Nat.mod_eq_of_lt (by omega)

theorem ShaLength.add_carry {len : ShaLength w} {m : ℕ} (hm : m < 2 ^ w)
    (h : 2 ^ w ≤ len.low.toNat + m) :
    len.add m
      = (⟨len.low + BitVec.ofNat w m, len.high + 1⟩, decide (len.high.toNat + 1 = 2 ^ w)) := by
  have hlow := len.low.isLt
  have hzero : (len.high + 1 == 0) = decide (len.high.toNat + 1 = 2 ^ w) := by
    rw [Bool.eq_iff_iff, beq_iff_eq, decide_eq_true_iff, ← BitVec.toNat_inj,
      toNat_high len (by omega)]
    split_ifs with hfull
    · exact iff_of_true rfl hfull
    · exact iff_of_false (Nat.succ_ne_zero _) hfull
  rw [add, ← hzero]
  refine if_pos ?_
  rw [BitVec.lt_def, toNat_low hm, if_neg (Nat.not_lt.2 h)]
  omega

theorem ShaLength.add_of_lt {len : ShaLength w} {m : ℕ} (hm : m < 2 ^ w)
    (h : len.value + m < 2 ^ w * 2 ^ w) :
    (len.add m).1.value = len.value + m ∧ (len.add m).2 = false := by
  have hlow := len.low.isLt
  rw [value] at h
  rcases Nat.lt_or_ge (len.low.toNat + m) (2 ^ w) with hlt | hge
  · rw [add_noCarry hm hlt, value, value, toNat_low hm, if_pos hlt]
    exact ⟨(Nat.add_assoc _ _ _).symm, rfl⟩
  · have hroom : len.high.toNat + 1 < 2 ^ w := by
      refine Nat.lt_of_mul_lt_mul_right (a := 2 ^ w) ?_
      rw [Nat.succ_mul]
      omega
    rw [add_carry hm hge, value, value, toNat_low hm, if_neg (Nat.not_lt.2 hge),
      toNat_high len (by omega), if_neg (Nat.ne_of_lt hroom), Nat.succ_mul]
    exact ⟨by omega, decide_eq_false (Nat.ne_of_lt hroom)⟩

theorem ShaLength.add_of_eq {len : ShaLength w} {m : ℕ} (hm : m < 2 ^ w)
    (h : len.value + m = 2 ^ w * 2 ^ w) : (len.add m).2 = true := by
  have hlow := len.low.isLt
  have hhigh := len.high.isLt
  rw [value] at h
  have hle : (len.high.toNat + 1) * 2 ^ w ≤ 2 ^ w * 2 ^ w := Nat.mul_le_mul_right _ hhigh
  rw [Nat.succ_mul] at hle
  have hlast : len.high.toNat + 1 = 2 ^ w := by
    refine Nat.le_antisymm hhigh (Nat.le_of_lt_succ (Nat.lt_of_mul_lt_mul_right (a := 2 ^ w) ?_))
    rw [Nat.succ_mul, Nat.succ_mul]
    omega
  rw [add_carry hm (by omega), decide_eq_true hlast]

theorem beBytes_value {n : ℕ} (hw : 8 * n = w) (len : ShaLength w) :
    beBytes (n + n) len.value = beBytes n len.high.toNat ++ beBytes n len.low.toNat := by
  subst hw
  rw [beBytes_add, ShaLength.value, Nat.shiftRight_eq_div_pow,
    Nat.add_comm (_ * _), Nat.add_mul_div_right _ _ (Nat.two_pow_pos _),
    Nat.div_eq_of_lt len.low.isLt, Nat.zero_add, ← beBytes_mod n (_ + _),
    Nat.add_mul_mod_self_right, Nat.mod_eq_of_lt len.low.isLt]

theorem octets32_eq (len : ShaLength 32) : len.octets32 = beBytes 8 len.value := by
  rw [beBytes_value (n := 4) rfl]
  rfl

theorem octets64_eq (len : ShaLength 64) : len.octets64 = beBytes 16 len.value := by
  rw [beBytes_value (n := 8) rfl]
  rfl

end Words

/-! ## SHA-1 -/

theorem sha1Words_eq {block : List UInt8} (h : block.length = 64) :
    sha1Words block = (List.range 80).map (sha1Word block) := by
  have hfirst : (List.range 16).map (fun t => loadWord32 block (t * 4))
      = (List.range 16).map (sha1Word block) := by
    refine List.map_congr_left fun t ht => ?_
    rw [List.mem_range] at ht
    rw [loadWord32_eq (by omega), sha1Word, if_pos ht]
  rw [sha1Words, hfirst]
  refine foldl_extend 64 fun t h16 _ => ?_
  rw [getD_map_range _ _ (by omega), getD_map_range _ _ (by omega), getD_map_range _ _ (by omega),
    getD_map_range _ _ (by omega), shaRotl_eq (by decide)]
  conv_rhs => rw [sha1Word, if_neg (Nat.not_lt.2 h16)]

theorem sha1Step_eq {block : List UInt8} (h : block.length = 64) {t : ℕ} (ht : t < 80)
    (v : Vector (BitVec 32) 5) :
    sha1Step (sha1Function t) (sha1Constant t) (sha1Words block) v t = sha1Round block v t := by
  have h30 : shaRotl 30 v[1] = v[1].rotateLeft 30 := shaRotl_eq (by decide) _
  have htemp : shaRotl 5 v[0] + sha1Function t v[1] v[2] v[3] + v[4] + (sha1Words block).getD t 0
        + sha1Constant t
      = v[0].rotateLeft 5 + sha1Function t v[1] v[2] v[3] + v[4] + sha1Constant t
        + sha1Word block t := by
    rw [sha1Words_eq h, getD_map_range _ _ ht, shaRotl_eq (by decide),
      word_add_right_comm _ (sha1Word block t)]
  exact congrArg₂ (fun x y => #v[x, v[0], y, v[2], v[3]]) htemp h30

/-- One of the four loops, over which the function and the constant stay the same. -/
theorem sha1Loop_eq {block : List UInt8} (h : block.length = 64) {a : ℕ} (ha : a + 20 ≤ 80)
    {f : BitVec 32 → BitVec 32 → BitVec 32 → BitVec 32} {K : BitVec 32}
    (hf : ∀ t, a ≤ t → t < a + 20 → sha1Function t = f ∧ sha1Constant t = K)
    (v : Vector (BitVec 32) 5) :
    (List.range' a 20).foldl (sha1Step f K (sha1Words block)) v
      = (List.range' a 20).foldl (sha1Round block) v := by
  refine List.foldl_ext _ _ _ fun v t ht => ?_
  obtain ⟨hle, hlt⟩ := List.mem_range'_1.1 ht
  obtain ⟨rfl, rfl⟩ := hf t hle hlt
  exact sha1Step_eq h (by omega) v

theorem sha1ProcessMessageBlock_eq (H : Vector (BitVec 32) 5) (block : List UInt8) :
    sha1ProcessMessageBlock H block = Vector.zipWith (· + ·) H
      ((List.range' 60 20).foldl (sha1Step shaParity 0xCA62C1D6 (sha1Words block))
        ((List.range' 40 20).foldl (sha1Step shaMaj 0x8F1BBCDC (sha1Words block))
          ((List.range' 20 20).foldl (sha1Step shaParity 0x6ED9EBA1 (sha1Words block))
            ((List.range' 0 20).foldl (sha1Step shaCh 0x5A827999 (sha1Words block)) H)))) := by
  have hadd : ∀ v : Vector (BitVec 32) 5,
      #v[H[0] + v[0], H[1] + v[1], H[2] + v[2], H[3] + v[3], H[4] + v[4]]
        = Vector.zipWith (· + ·) H v := by
    intro v
    refine Vector.ext fun i hi => ?_
    rw [Vector.getElem_zipWith]
    obtain rfl | rfl | rfl | rfl | rfl : i = 0 ∨ i = 1 ∨ i = 2 ∨ i = 3 ∨ i = 4 := by omega
    all_goals rfl
  exact hadd _

theorem sha1Compress_eq (H : Vector (BitVec 32) 5) {block : List UInt8} (h : block.length = 64) :
    sha1ProcessMessageBlock H block = sha1Compress H block := by
  have hrange : List.range 80
      = List.range' 0 20 ++ List.range' 20 20 ++ List.range' 40 20 ++ List.range' 60 20 := rfl
  have h1 : ∀ t, 0 ≤ t → t < 0 + 20 →
      sha1Function t = shaCh ∧ sha1Constant t = 0x5A827999 := fun t _ ht => by
    rw [sha1Function, sha1Constant, if_pos (by omega), if_pos (by omega)]
    exact ⟨rfl, by decide +kernel⟩
  have h2 : ∀ t, 20 ≤ t → t < 20 + 20 →
      sha1Function t = shaParity ∧ sha1Constant t = 0x6ED9EBA1 := fun t _ ht => by
    rw [sha1Function, sha1Constant, if_neg (by omega), if_pos (by omega), if_neg (by omega),
      if_pos (by omega)]
    exact ⟨rfl, by decide +kernel⟩
  have h3 : ∀ t, 40 ≤ t → t < 40 + 20 →
      sha1Function t = shaMaj ∧ sha1Constant t = 0x8F1BBCDC := fun t _ ht => by
    rw [sha1Function, sha1Constant, if_neg (by omega), if_neg (by omega), if_pos (by omega),
      if_neg (by omega), if_neg (by omega), if_pos (by omega)]
    exact ⟨rfl, by decide +kernel⟩
  have h4 : ∀ t, 60 ≤ t → t < 60 + 20 →
      sha1Function t = shaParity ∧ sha1Constant t = 0xCA62C1D6 := fun t _ ht => by
    rw [sha1Function, sha1Constant, if_neg (by omega), if_neg (by omega), if_neg (by omega),
      if_neg (by omega), if_neg (by omega), if_neg (by omega)]
    exact ⟨rfl, by decide +kernel⟩
  rw [sha1ProcessMessageBlock_eq, sha1Loop_eq h (by omega) h1, sha1Loop_eq h (by omega) h2,
    sha1Loop_eq h (by omega) h3, sha1Loop_eq h (by omega) h4, sha1Compress, hrange,
    List.foldl_append, List.foldl_append, List.foldl_append]

theorem sha1_computes :
    sha1Family.Computes id sha1Compress ShaLength.value (2 ^ 32 * 2 ^ 32) where
  process H block h := sha1Compress_eq H h
  noLength := rfl
  addLength l m _ hm h := ShaLength.add_of_lt (w := 32) (by omega) h
  tooLong l h := ShaLength.add_of_eq (w := 32) (by omega) h
  lengthOctets := octets32_eq
  lengthSize_lt := by decide
  dvd_limit := by decide
  limit_pos := by decide

/-! ## The tables of SHA-2 -/

def firstPrimes : List ℕ :=
  [2, 3, 5, 7, 11, 13, 17, 19, 23, 29, 31, 37, 41, 43, 47, 53, 59, 61, 67,
   71, 73, 79, 83, 89, 97, 101, 103, 107, 109, 113, 127, 131, 137, 139, 149, 151, 157, 163,
   167, 173, 179, 181, 191, 193, 197, 199, 211, 223, 227, 229, 233, 239, 241, 251, 257, 263, 269,
   271, 277, 281, 283, 293, 307, 311, 313, 317, 331, 337, 347, 349, 353, 359, 367, 373, 379, 383,
   389, 397, 401, 409, 419, 421, 431, 433, 439]

/-- Bits of the roots of the primes from number `k` on. -/
def rootTable (n w k count : ℕ) : List (BitVec w) :=
  ((firstPrimes.drop k).take count).map fun x => BitVec.ofNat w (Nat.nthRoot n (x * 2 ^ (n * w)))

theorem primeRoot_eq {n w t x : ℕ} (h : firstPrimes[t]? = some x) :
    primeRoot n w t = BitVec.ofNat w (Nat.nthRoot n (x * 2 ^ (n * w))) := by
  have hprimes : (List.range 441).filter trial = firstPrimes := by decide +kernel
  rw [primeRoot, nth_prime (hprimes ▸ h)]

theorem getD_rootTable {n w k count t : ℕ} (ht : t < count) (hk : count + k ≤ firstPrimes.length) :
    (rootTable n w k count).getD t 0 = primeRoot n w (t + k) := by
  have hx : firstPrimes[k + t]? = some firstPrimes[k + t] :=
    List.getElem?_eq_getElem (by omega)
  rw [Nat.add_comm t, primeRoot_eq hx, List.getD_eq_getElem?_getD, rootTable, List.getElem?_map,
    List.getElem?_take_of_lt ht, List.getElem?_drop, hx]
  rfl

theorem sha256K_eq {t : ℕ} (ht : t < 64) : sha256K.getD t 0 = primeRoot 3 32 t := by
  have htable : sha256K = rootTable 3 32 0 64 := by decide +kernel
  rw [htable, getD_rootTable ht (by decide), Nat.add_zero]

theorem sha512K_eq {t : ℕ} (ht : t < 80) : sha512K.getD t 0 = primeRoot 3 64 t := by
  have htable : sha512K = rootTable 3 64 0 80 := by decide +kernel
  rw [htable, getD_rootTable ht (by decide), Nat.add_zero]

theorem eq_ofFn_primeRoot {w k : ℕ} {H0 : Vector (BitVec w) 8}
    (h : H0.toList = rootTable 2 w k 8) (hk : 8 + k ≤ firstPrimes.length) :
    H0 = Vector.ofFn fun i => primeRoot 2 w (i + k) := by
  refine Vector.ext fun i hi => ?_
  rw [Vector.getElem_ofFn, ← getD_rootTable hi hk, ← h, List.getD_eq_getElem?_getD,
    Vector.getElem?_toList, Vector.getElem?_eq_getElem hi, Option.getD_some]

theorem sha256H0_eq : sha256H0 = sha256Initial :=
  eq_ofFn_primeRoot (k := 0) (by decide +kernel) (by decide)

theorem sha512H0_eq : sha512H0 = sha512Initial :=
  eq_ofFn_primeRoot (k := 0) (by decide +kernel) (by decide)

theorem sha384H0_eq : sha384H0 = sha384Initial :=
  eq_ofFn_primeRoot (k := 8) (by decide +kernel) (by decide)

theorem sha224H0_eq : sha224H0 = sha224Initial := by
  have hlow : ∀ i (hi : i < 8), sha224H0[i] = sha384H0[i].setWidth 32 := by decide
  refine Vector.ext fun i hi => ?_
  rw [hlow i hi, sha384H0_eq, sha384Initial, sha224Initial, Vector.getElem_ofFn,
    Vector.getElem_ofFn]

/-! ## SHA-2 -/

/-- A file has the functions, the table and the words of the standard. -/
structure Sha2File.Agrees {w : ℕ} (P : Sha2File w) (Q : Sha2 w) : Prop where
  rounds : P.K.length = Q.rounds
  table : ∀ t < Q.rounds, P.K.getD t 0 = primeRoot 3 w t
  SIGMA0 : P.SIGMA0 = Q.Sigma0
  SIGMA1 : P.SIGMA1 = Q.Sigma1
  sigma0 : P.sigma0 = Q.sigma0
  sigma1 : P.sigma1 = Q.sigma1
  loadWord : ∀ block : List UInt8, block.length = 2 * w → ∀ t < 16,
    P.loadWord block (t * (w / 8)) = blockWord w block t
  first : 16 ≤ Q.rounds

section Sha2

variable {w : ℕ} {P : Sha2File w} {Q : Sha2 w} {block : List UInt8}

theorem sha2Words_eq (hP : P.Agrees Q) (h : block.length = 2 * w) :
    sha2Words P block = (List.range Q.rounds).map (sha2Word Q block) := by
  have hfirst : (List.range 16).map (fun t => P.loadWord block (t * (w / 8)))
      = (List.range 16).map (sha2Word Q block) := by
    refine List.map_congr_left fun t ht => ?_
    rw [List.mem_range] at ht
    rw [hP.loadWord block h t ht, sha2Word, if_pos ht]
  have hrounds : Q.rounds = 16 + (Q.rounds - 16) := (Nat.add_sub_cancel' hP.first).symm
  rw [sha2Words, hfirst, hP.rounds]
  conv_rhs => rw [hrounds]
  refine foldl_extend _ fun t h16 _ => ?_
  rw [getD_map_range _ _ (by omega), getD_map_range _ _ (by omega), getD_map_range _ _ (by omega),
    getD_map_range _ _ (by omega), hP.sigma0, hP.sigma1]
  conv_rhs => rw [sha2Word, if_neg (Nat.not_lt.2 h16)]

theorem sha2Step_eq (hP : P.Agrees Q) (h : block.length = 2 * w) {t : ℕ} (ht : t < Q.rounds)
    (v : Vector (BitVec w) 8) : sha2Step P (sha2Words P block) v t = sha2Round Q block v t := by
  have htemp1 : v[7] + P.SIGMA1 v[4] + shaCh v[4] v[5] v[6] + P.K.getD t 0
        + (sha2Words P block).getD t 0
      = v[7] + Q.Sigma1 v[4] + ch v[4] v[5] v[6] + primeRoot 3 w t + sha2Word Q block t := by
    rw [hP.table t ht, sha2Words_eq hP h, getD_map_range _ _ ht, hP.SIGMA1]
    rfl
  have htemp2 : P.SIGMA0 v[0] + shaMaj v[0] v[1] v[2] = Q.Sigma0 v[0] + maj v[0] v[1] v[2] := by
    rw [hP.SIGMA0]
    rfl
  exact congrArg₂ (fun x y => #v[x + y, v[0], v[1], v[2], v[3] + x, v[4], v[5], v[6]]) htemp1 htemp2

theorem sha2ProcessMessageBlock_eq (P : Sha2File w) (H : Vector (BitVec w) 8)
    (block : List UInt8) : sha2ProcessMessageBlock P H block = Vector.zipWith (· + ·) H
      ((List.range P.K.length).foldl (sha2Step P (sha2Words P block)) H) := by
  have hadd : ∀ v : Vector (BitVec w) 8,
      #v[H[0] + v[0], H[1] + v[1], H[2] + v[2], H[3] + v[3], H[4] + v[4], H[5] + v[5],
        H[6] + v[6], H[7] + v[7]] = Vector.zipWith (· + ·) H v := by
    intro v
    refine Vector.ext fun i hi => ?_
    rw [Vector.getElem_zipWith]
    obtain rfl | rfl | rfl | rfl | rfl | rfl | rfl | rfl :
        i = 0 ∨ i = 1 ∨ i = 2 ∨ i = 3 ∨ i = 4 ∨ i = 5 ∨ i = 6 ∨ i = 7 := by omega
    all_goals rfl
  exact hadd _

theorem sha2Compress_eq (hP : P.Agrees Q) (H : Vector (BitVec w) 8) (h : block.length = 2 * w) :
    sha2ProcessMessageBlock P H block = sha2Compress Q H block := by
  have hloop : (List.range P.K.length).foldl (sha2Step P (sha2Words P block)) H
      = (List.range Q.rounds).foldl (sha2Round Q block) H := by
    rw [hP.rounds]
    exact List.foldl_ext _ _ _ fun v t ht => sha2Step_eq hP h (List.mem_range.1 ht) v
  rw [sha2ProcessMessageBlock_eq, hloop, sha2Compress]

end Sha2

theorem sha224256_agrees : sha224256File.Agrees sha2Words32 where
  rounds := rfl
  table _ ht := sha256K_eq ht
  SIGMA0 := by simp [sha224256File, sha2Words32, shaRotr_eq]
  SIGMA1 := by simp [sha224256File, sha2Words32, shaRotr_eq]
  sigma0 := by simp [sha224256File, sha2Words32, shaRotr_eq]
  sigma1 := by simp [sha224256File, sha2Words32, shaRotr_eq]
  loadWord block h t ht := loadWord32_eq (by omega)
  first := by decide

theorem sha384512_agrees : sha384512File.Agrees sha2Words64 where
  rounds := rfl
  table _ ht := sha512K_eq ht
  SIGMA0 := by simp [sha384512File, sha2Words64, shaRotr_eq]
  SIGMA1 := by simp [sha384512File, sha2Words64, shaRotr_eq]
  sigma0 := by simp [sha384512File, sha2Words64, shaRotr_eq]
  sigma1 := by simp [sha384512File, sha2Words64, shaRotr_eq]
  loadWord block h t ht := loadWord64_eq (by omega)
  first := by decide

theorem sha224256_computes : sha224256Family.Computes id (sha2Compress sha2Words32)
    ShaLength.value (2 ^ 32 * 2 ^ 32) where
  process H block h := sha2Compress_eq sha224256_agrees H h
  noLength := rfl
  addLength l m _ hm h := ShaLength.add_of_lt (w := 32) (by omega) h
  tooLong l h := ShaLength.add_of_eq (w := 32) (by omega) h
  lengthOctets := octets32_eq
  lengthSize_lt := by decide
  dvd_limit := by decide
  limit_pos := by decide

theorem sha384512_computes : sha384512Family.Computes id (sha2Compress sha2Words64)
    ShaLength.value (2 ^ 64 * 2 ^ 64) where
  process H block h := sha2Compress_eq sha384512_agrees H h
  noLength := rfl
  addLength l m _ hm h := ShaLength.add_of_lt (w := 64) (by omega) h
  tooLong l h := ShaLength.add_of_eq (w := 64) (by omega) h
  lengthOctets := octets64_eq
  lengthSize_lt := by decide
  dvd_limit := by decide
  limit_pos := by decide

end YkPers
