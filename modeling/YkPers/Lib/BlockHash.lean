import Mathlib.Data.List.Basic
import Mathlib.Data.List.Flatten
import Mathlib.Algebra.Group.Nat.Defs

/-!
# Hashes that take a message block by block

A message is a string of bits. `pad` ends it with a one, zeros and its length, and `blockFold`
takes a compression function over the blocks of a string of bytes; `blockFold_append` is the one
rule behind a buffer that is filled byte by byte: only what is left in it, `rest`, counts for what
comes next. `hmac` is the keyed hash over any hash of bits.
-/

namespace BlockHash

/-! ## Bits and bytes -/

/-- The lowest `n` bits of a number, the highest first. -/
def beBits (n v : ℕ) : List Bool := (List.range n).map fun i => v.testBit (n - 1 - i)

def byteBits (b : UInt8) : List Bool := beBits 8 b.toNat

def bits (bs : List UInt8) : List Bool := bs.flatMap byteBits

def bitsValue (l : List Bool) : ℕ := l.foldl (fun v b => 2 * v + b.toNat) 0

/-- The bytes of a string of bits, eight at a time. -/
def pack : List Bool → List UInt8
  | a :: b :: c :: d :: e :: f :: g :: h :: l =>
    UInt8.ofNat (bitsValue [a, b, c, d, e, f, g, h]) :: pack l
  | _ => []

@[simp] theorem length_beBits (n v : ℕ) : (beBits n v).length = n := by
  simp [beBits]

@[simp] theorem length_byteBits (b : UInt8) : (byteBits b).length = 8 := length_beBits 8 _

@[simp] theorem bits_nil : bits [] = [] := rfl

@[simp] theorem bits_cons (b : UInt8) (bs : List UInt8) : bits (b :: bs) = byteBits b ++ bits bs :=
  List.flatMap_cons

@[simp] theorem bits_append (bs cs : List UInt8) : bits (bs ++ cs) = bits bs ++ bits cs :=
  List.flatMap_append

@[simp] theorem length_bits : ∀ bs : List UInt8, (bits bs).length = 8 * bs.length
  | [] => rfl
  | b :: bs => by
    rw [bits_cons, List.length_append, length_byteBits, length_bits bs, List.length_cons]
    omega

theorem bits_replicate_zero : ∀ n : ℕ, bits (List.replicate n 0) = List.replicate (8 * n) false
  | 0 => rfl
  | n + 1 => by
    rw [List.replicate_succ, bits_cons, bits_replicate_zero n, Nat.mul_succ, Nat.add_comm,
      List.replicate_add]
    rfl

theorem byteBits_eq (b : UInt8) : byteBits b
    = [b.toNat.testBit 7, b.toNat.testBit 6, b.toNat.testBit 5, b.toNat.testBit 4,
      b.toNat.testBit 3, b.toNat.testBit 2, b.toNat.testBit 1, b.toNat.testBit 0] := rfl

theorem byteBits_or (x y : UInt8) :
    byteBits (x ||| y) = List.zipWith (· || ·) (byteBits x) (byteBits y) := by
  simp only [byteBits_eq, UInt8.toNat_or, Nat.testBit_or, List.zipWith_cons_cons,
    List.zipWith_nil_right]

theorem byteBits_and (x y : UInt8) :
    byteBits (x &&& y) = List.zipWith (· && ·) (byteBits x) (byteBits y) := by
  simp only [byteBits_eq, UInt8.toNat_and, Nat.testBit_and, List.zipWith_cons_cons,
    List.zipWith_nil_right]

theorem bitsValue_byteBits (b : UInt8) : bitsValue (byteBits b) = b.toNat := by
  have h : ∀ n < 256, bitsValue (beBits 8 n) = n := by decide +kernel
  exact h _ b.toNat_lt

theorem pack_bits : ∀ bs : List UInt8, pack (bits bs) = bs
  | [] => rfl
  | b :: bs => by
    have hb : UInt8.ofNat (bitsValue (byteBits b)) = b := by
      rw [bitsValue_byteBits]
      exact UInt8.ofNat_toNat
    rw [bits_cons, byteBits_eq]
    simp only [List.cons_append, List.nil_append, pack]
    rw [pack_bits bs, ← byteBits_eq, hb]

/-- A number in bytes, the highest first. -/
def beBytes (n v : ℕ) : List UInt8 :=
  (List.range n).map fun i => UInt8.ofNat (v >>> (8 * (n - 1 - i)))

@[simp] theorem length_beBytes (n v : ℕ) : (beBytes n v).length = n := by
  simp [beBytes]

theorem beBytes_succ (n v : ℕ) :
    beBytes (n + 1) v = UInt8.ofNat (v >>> (8 * n)) :: beBytes n v := by
  rw [beBytes, List.range_succ_eq_map, List.map_cons, List.map_map, Nat.add_sub_cancel,
    Nat.sub_zero, beBytes]
  congr 1
  refine List.map_congr_left fun i hi => ?_
  rw [Function.comp_apply, show n - (i + 1) = n - 1 - i by omega]

theorem beBytes_add (m n v : ℕ) :
    beBytes (m + n) v = beBytes m (v >>> (8 * n)) ++ beBytes n v := by
  rw [beBytes, List.range_add, List.map_append, List.map_map, beBytes, beBytes]
  congr 1
  · refine List.map_congr_left fun i hi => ?_
    rw [List.mem_range] at hi
    rw [← Nat.shiftRight_add, show 8 * (m + n - 1 - i) = 8 * n + 8 * (m - 1 - i) by omega]
  · refine List.map_congr_left fun i _ => ?_
    rw [Function.comp_apply, show m + n - 1 - (m + i) = n - 1 - i by omega]

/-- Only as many bits count as there are in the bytes. -/
theorem beBytes_mod (n v : ℕ) : beBytes n (v % 2 ^ (8 * n)) = beBytes n v := by
  refine List.map_congr_left fun i hi => UInt8.toNat_inj.1 (Nat.eq_of_testBit_eq fun j => ?_)
  rw [List.mem_range] at hi
  simp only [UInt8.toNat_ofNat', Nat.testBit_mod_two_pow, Nat.testBit_shiftRight]
  rcases Nat.lt_or_ge j 8 with hj | hj
  · rw [decide_eq_true (show 8 * (n - 1 - i) + j < 8 * n by omega), Bool.true_and]
  · rw [decide_eq_false (Nat.not_lt.2 hj), Bool.false_and, Bool.false_and]

theorem beBits_add (m n v : ℕ) : beBits (m + n) v = beBits m (v >>> n) ++ beBits n v := by
  rw [beBits, List.range_add, List.map_append, List.map_map, beBits, beBits]
  congr 1
  · refine List.map_congr_left fun i hi => ?_
    rw [List.mem_range] at hi
    rw [Nat.testBit_shiftRight, show m + n - 1 - i = n + (m - 1 - i) by omega]
  · refine List.map_congr_left fun i hi => ?_
    rw [Function.comp_apply, show m + n - 1 - (m + i) = n - 1 - i by omega]

theorem byteBits_ofNat (v : ℕ) : byteBits (UInt8.ofNat v) = beBits 8 v := by
  rw [byteBits, beBits, beBits]
  refine List.map_congr_left fun i _ => ?_
  rw [UInt8.toNat_ofNat', Nat.testBit_mod_two_pow, decide_eq_true (by omega), Bool.true_and]

theorem bits_beBytes : ∀ n v : ℕ, bits (beBytes n v) = beBits (8 * n) v
  | 0, v => rfl
  | n + 1, v => by
    rw [beBytes_succ, bits_cons, bits_beBytes n v, byteBits_ofNat, Nat.mul_succ, Nat.add_comm,
      beBits_add]

/-! ## Padding -/

/-- The fewest zeros with which a message of `l` bits, a one, the zeros and `lengthBits` bits end
with a block. -/
def zeros (blockBits lengthBits l : ℕ) : ℕ :=
  (blockBits - (l + 1 + lengthBits) % blockBits) % blockBits

def pad (blockBits lengthBits : ℕ) (M : List Bool) : List Bool :=
  M ++ true :: List.replicate (zeros blockBits lengthBits M.length) false
    ++ beBits lengthBits M.length

theorem zeros_eq {B l n z : ℕ} (h : (l + 1 + z + n) % B = 0) (hz : z < B) : zeros B n l = z := by
  rw [zeros]
  have hmod : (l + 1 + n + z) % B = 0 := by rwa [Nat.add_right_comm]
  have hlt := Nat.mod_lt (l + 1 + n) (Nat.lt_of_le_of_lt (Nat.zero_le z) hz)
  rw [Nat.add_mod, Nat.mod_eq_of_lt hz] at hmod
  generalize (l + 1 + n) % B = r at hmod hlt
  rcases Nat.eq_zero_or_pos z with rfl | hpos
  · rw [Nat.add_zero, Nat.mod_eq_of_lt hlt] at hmod
    rw [hmod, Nat.sub_zero, Nat.mod_self]
  · have hsum : r + z = B := by
      rcases Nat.lt_or_ge (r + z) B with h1 | h1
      · rw [Nat.mod_eq_of_lt h1] at hmod
        omega
      · rw [Nat.mod_eq_sub_mod h1, Nat.mod_eq_of_lt (by omega)] at hmod
        omega
    rw [show B - r = z by omega, Nat.mod_eq_of_lt hz]

/-- A message of whole bytes and the first `n` bits of a last one, padded in bytes: `p` is the last
one with its mark. -/
theorem pad_bits {B L n z : ℕ} {bs : List UInt8} {last p : UInt8} (hn : n < 8)
    (hp : byteBits p = (byteBits last).take n ++ true :: List.replicate (7 - n) false)
    (h : (bs.length + 1 + z + L) % B = 0) (hz : z < B) :
    pad (8 * B) (8 * L) (bits bs ++ (byteBits last).take n)
      = bits (bs ++ p :: List.replicate z 0 ++ beBytes L (8 * bs.length + n)) := by
  have hlen : (bits bs ++ (byteBits last).take n).length = 8 * bs.length + n := by
    rw [List.length_append, length_bits, List.length_take, length_byteBits,
      Nat.min_eq_left (Nat.le_of_lt hn)]
  have hzeros : zeros (8 * B) (8 * L) (8 * bs.length + n) = 7 - n + 8 * z := by
    refine zeros_eq ?_ (by omega)
    rw [show 8 * bs.length + n + 1 + (7 - n + 8 * z) + 8 * L = 8 * (bs.length + 1 + z + L) by omega,
      Nat.mul_mod_mul_left, h]
  rw [pad, hlen, hzeros, bits_append, bits_append, bits_cons, bits_beBytes, bits_replicate_zero, hp,
    List.replicate_add]
  simp only [List.append_assoc, List.cons_append]

/-! ## Blocks -/

section Fold

variable {σ : Type*} (n : ℕ) (f : σ → List UInt8 → σ)

/-- The compression function over the whole blocks of `n` bytes, from the front. -/
def blockFold (s : σ) (bs : List UInt8) : σ :=
  ((List.range (bs.length / n)).map fun i => (bs.drop (i * n)).take n).foldl f s

/-- The bytes behind the last whole block. -/
def rest (bs : List UInt8) : List UInt8 := bs.drop (bs.length / n * n)

variable {n f} {s : σ} {bs cs : List UInt8}

theorem length_rest : (rest n bs).length = bs.length % n := by
  rw [rest, List.length_drop, Nat.mod_eq_sub_div_mul]

theorem blockFold_of_lt (h : bs.length < n) : blockFold n f s bs = s := by
  rw [blockFold, Nat.div_eq_of_lt h]
  rfl

theorem rest_of_lt (h : bs.length < n) : rest n bs = bs := by
  rw [rest, Nat.div_eq_of_lt h, Nat.zero_mul, List.drop_zero]

theorem blockFold_of_length (hn : 0 < n) (h : bs.length = n) : blockFold n f s bs = f s bs := by
  rw [blockFold, h, Nat.div_self hn, List.range_one, List.map_singleton, Nat.zero_mul,
    List.drop_zero, List.take_of_length_le (Nat.le_of_eq h), List.foldl_cons, List.foldl_nil]

theorem whole_append_rest (bs : List UInt8) : bs.take (bs.length / n * n) ++ rest n bs = bs :=
  List.take_append_drop _ _

theorem length_whole : (bs.take (bs.length / n * n)).length = bs.length / n * n := by
  rw [List.length_take, Nat.min_eq_left (Nat.div_mul_le_self _ _)]

/-- Whole blocks, and then more. -/
theorem blockFold_mul_append (hn : 0 < n) {k : ℕ} (h : bs.length = k * n) :
    blockFold n f s (bs ++ cs) = blockFold n f (blockFold n f s bs) cs := by
  have hk : (bs ++ cs).length / n = k + cs.length / n := by
    rw [List.length_append, h, Nat.add_comm, Nat.add_mul_div_right _ _ hn, Nat.add_comm]
  rw [blockFold, hk, List.range_add, List.map_append, List.foldl_append, List.map_map, blockFold,
    blockFold, h, Nat.mul_div_cancel _ hn]
  congr 1
  · congr 1
    refine List.map_congr_left fun i hi => ?_
    have hle : i * n + n ≤ k * n := by
      rw [← Nat.succ_mul]
      exact Nat.mul_le_mul_right n (List.mem_range.1 hi)
    rw [List.drop_append_of_le_length (by omega), List.take_append_of_le_length (by
      rw [List.length_drop]
      omega)]
  · refine List.map_congr_left fun i _ => ?_
    rw [Function.comp_apply, Nat.add_mul, ← h, List.drop_length_add_append]

/-- Of what is there already, only the bytes behind the last whole block count for what comes
next. -/
theorem blockFold_append (hn : 0 < n) (bs cs : List UInt8) :
    blockFold n f s (bs ++ cs) = blockFold n f (blockFold n f s bs) (rest n bs ++ cs) := by
  have hlt : (rest n bs).length < n := by
    rw [length_rest]
    exact Nat.mod_lt _ hn
  have hbs : blockFold n f s bs = blockFold n f s (bs.take (bs.length / n * n)) := by
    conv_lhs => rw [← whole_append_rest (n := n) bs, blockFold_mul_append hn length_whole]
    exact blockFold_of_lt hlt
  conv_lhs => rw [← whole_append_rest (n := n) bs, List.append_assoc]
  rw [blockFold_mul_append hn length_whole, ← hbs]

theorem rest_mul_append (hn : 0 < n) {k : ℕ} (h : bs.length = k * n) :
    rest n (bs ++ cs) = rest n cs := by
  rw [rest, List.length_append, h, Nat.add_comm (k * n), Nat.add_mul_div_right _ _ hn, Nat.add_mul,
    Nat.add_comm, ← h, List.drop_length_add_append, rest]

theorem rest_append (hn : 0 < n) (bs cs : List UInt8) :
    rest n (bs ++ cs) = rest n (rest n bs ++ cs) := by
  conv_lhs => rw [← whole_append_rest (n := n) bs, List.append_assoc]
  exact rest_mul_append hn length_whole

end Fold

/-! ## HMAC -/

section Hmac

variable (hash : List Bool → List UInt8) (blockSize : ℕ)

/-- The key in a block: one longer than a block is hashed first. -/
def hmacKey (key : List UInt8) : List UInt8 :=
  let k := if blockSize < key.length then hash (bits key) else key
  k ++ List.replicate (blockSize - k.length) 0

def innerPad (key : List UInt8) : List UInt8 := (hmacKey hash blockSize key).map (· ^^^ 0x36)

def outerPad (key : List UInt8) : List UInt8 := (hmacKey hash blockSize key).map (· ^^^ 0x5c)

def hmac (key : List UInt8) (M : List Bool) : List UInt8 :=
  hash (bits (outerPad hash blockSize key ++ hash (bits (innerPad hash blockSize key) ++ M)))

end Hmac

end BlockHash
