import Mathlib.Data.List.Basic

/-!
# Reflected cyclic redundancy checks

The remainder of width `w` shifts right, and takes the polynomial `p` whenever a one leaves it.
A shift is linear over exclusive or (`shift_xor`), so reading a little-endian word is shifting
its exclusive or with the remainder (`foldl_feed_leBytes`). A message followed by its own
remainder, changed by a mask, therefore leaves a remainder that depends on the mask alone
(`crc_append_leBytes`).
-/

namespace Crc

variable {w : ℕ} (p : BitVec w)

def shift (r : BitVec w) : BitVec w :=
  if r.getLsbD 0 then (r >>> 1) ^^^ p else r >>> 1

def shifts : ℕ → BitVec w → BitVec w
  | 0, r => r
  | n + 1, r => shifts n (shift p r)

def feed (r : BitVec w) (b : BitVec 8) : BitVec w := shifts p 8 (r ^^^ b.setWidth w)

def crc (init : BitVec w) (bytes : List (BitVec 8)) : BitVec w := bytes.foldl (feed p) init

/-- The `k` low bytes of a word, lowest first. -/
def leBytes : ℕ → BitVec w → List (BitVec 8)
  | 0, _ => []
  | k + 1, x => x.setWidth 8 :: leBytes k (x >>> 8)

theorem shift_xor (a b : BitVec w) : shift p (a ^^^ b) = shift p a ^^^ shift p b := by
  unfold shift
  simp only [BitVec.getLsbD_xor, BitVec.ushiftRight_xor_distrib]
  cases a.getLsbD 0 <;> cases b.getLsbD 0 <;>
    simp only [Bool.xor_self, Bool.xor_true, Bool.xor_false, Bool.not_false,
      Bool.false_eq_true, ↓reduceIte]
  · ac_rfl
  · ac_rfl
  · have : a >>> 1 ^^^ p ^^^ (b >>> 1 ^^^ p) = a >>> 1 ^^^ b >>> 1 ^^^ (p ^^^ p) := by ac_rfl
    rw [this, BitVec.xor_self, BitVec.xor_zero]

theorem shifts_xor (n : ℕ) (a b : BitVec w) :
    shifts p n (a ^^^ b) = shifts p n a ^^^ shifts p n b := by
  induction n generalizing a b with
  | zero => rfl
  | succ n ih => simp only [shifts, shift_xor, ih]

theorem shifts_add (m n : ℕ) (r : BitVec w) : shifts p (m + n) r = shifts p n (shifts p m r) := by
  induction m generalizing r with
  | zero => simp [shifts]
  | succ m ih => simp only [Nat.succ_add, shifts, ih]

/-- Zeros leave the remainder without the polynomial. -/
theorem shifts_of_low_zero (n : ℕ) (z : BitVec w) (hz : ∀ i < n, z.getLsbD i = false) :
    shifts p n z = z >>> n := by
  induction n generalizing z with
  | zero => simp [shifts]
  | succ n ih =>
    have h0 : shift p z = z >>> 1 := by simp [shift, hz 0 (by omega)]
    rw [shifts, h0, ih, BitVec.shiftRight_add z n 1, ← BitVec.shiftRight_add,
      ← BitVec.shiftRight_add, Nat.add_comm]
    intro i hi
    simpa [Nat.add_comm] using hz (i + 1) (by omega)

/-- A word is its low byte and the rest moved up. -/
theorem low_xor_high (x : BitVec w) : (x.setWidth 8).setWidth w ^^^ (x >>> 8) <<< 8 = x := by
  apply BitVec.eq_of_getLsbD_eq
  intro i hi
  simp only [BitVec.getLsbD_xor, BitVec.getLsbD_setWidth, BitVec.getLsbD_shiftLeft,
    BitVec.getLsbD_ushiftRight, hi, decide_true, Bool.true_and]
  by_cases h8 : i < 8
  · simp [h8]
  · have : 8 + (i - 8) = i := by omega
    simp [h8, this]

theorem shifts_high (x : BitVec w) : shifts p 8 ((x >>> 8) <<< 8) = x >>> 8 := by
  rw [shifts_of_low_zero]
  · apply BitVec.eq_of_getLsbD_eq
    intro i hi
    simp only [BitVec.getLsbD_ushiftRight, BitVec.getLsbD_shiftLeft, Nat.add_sub_cancel_left]
    by_cases h : 8 + i < w
    · simp [h]
    · simp [h, BitVec.getLsbD_of_ge x (8 + i) (by omega)]
  · intro i hi
    simp [hi]

/-- Reading the bytes of a word is shifting out the word's exclusive or with the remainder. -/
theorem foldl_feed_leBytes (k : ℕ) (r x : BitVec w) (hx : x >>> (8 * k) = 0) :
    (leBytes k x).foldl (feed p) r = shifts p (8 * k) (r ^^^ x) := by
  induction k generalizing r x with
  | zero =>
    have : x = 0 := by simpa using hx
    simp [leBytes, shifts, this]
  | succ k ih =>
    have hx' : (x >>> 8) >>> (8 * k) = 0 := by
      rw [← BitVec.shiftRight_add, Nat.add_comm]
      exact hx
    rw [leBytes, List.foldl_cons, ih _ _ hx', Nat.mul_succ, Nat.add_comm, shifts_add]
    congr 1
    calc feed p r (x.setWidth 8) ^^^ x >>> 8
        = shifts p 8 (r ^^^ (x.setWidth 8).setWidth w) ^^^ shifts p 8 ((x >>> 8) <<< 8) := by
          rw [shifts_high, feed]
      _ = shifts p 8 (r ^^^ ((x.setWidth 8).setWidth w ^^^ (x >>> 8) <<< 8)) := by
          rw [← shifts_xor, BitVec.xor_assoc]
      _ = shifts p 8 (r ^^^ x) := by rw [low_xor_high]

/-- What a message and its own remainder, changed by `mask`, leave does not depend on the
message. -/
theorem crc_append_leBytes {k : ℕ} (p init mask : BitVec (8 * k)) (msg : List (BitVec 8)) :
    crc p init (msg ++ leBytes k (crc p init msg ^^^ mask)) = shifts p (8 * k) mask := by
  have hx : (crc p init msg ^^^ mask) >>> (8 * k) = 0 := by
    apply BitVec.eq_of_getLsbD_eq
    intro i hi
    simp
  have hx2 : crc p init msg ^^^ (crc p init msg ^^^ mask) = mask := by
    rw [← BitVec.xor_assoc, BitVec.xor_self, BitVec.zero_xor]
  unfold crc at *
  rw [List.foldl_append, foldl_feed_leBytes p k _ _ hx, hx2]

end Crc
