import Mathlib.Data.List.Basic
import Mathlib.Algebra.Group.Nat.Defs
import Mathlib.Logic.Function.Iterate

/-!
# PBKDF2

The derived key over a pseudorandom function whose passphrase is fixed: block `i` is the exclusive
or of the function's iterates on the salt and the number `i`, and the key is the front of the
blocks in their order. `xorSum` adds bytes up without carries, and `getD_derived` finds a byte of
the key in its block.
-/

/-! ## Exclusive or over a range -/

def xorSum (f : ℕ → UInt8) : ℕ → UInt8
  | 0 => 0
  | n + 1 => xorSum f n ^^^ f n

theorem xorSum_congr {f g : ℕ → UInt8} : ∀ {n : ℕ}, (∀ k < n, f k = g k) → xorSum f n = xorSum g n
  | 0, _ => rfl
  | n + 1, h => by
    rw [xorSum, xorSum, xorSum_congr fun k hk => h k (by omega), h n (by omega)]

theorem xorSum_succ' (f : ℕ → UInt8) :
    ∀ n : ℕ, xorSum f (n + 1) = f 0 ^^^ xorSum (fun k => f (k + 1)) n
  | 0 => by simp [xorSum]
  | n + 1 => by
    rw [xorSum, xorSum_succ' f n, UInt8.xor_assoc]
    rfl

/-- The same byte taken twice is gone. -/
theorem xorSum_const (b : UInt8) : ∀ n : ℕ, xorSum (fun _ => b) n = if n % 2 = 0 then 0 else b
  | 0 => rfl
  | n + 1 => by
    rw [xorSum, xorSum_const b n]
    rcases Nat.mod_two_eq_zero_or_one n with h | h
    · rw [if_pos h, if_neg (by omega), UInt8.zero_xor]
    · rw [if_neg (by omega), if_pos (by omega), UInt8.xor_self]

/-- What comes behind the last byte other than 0 adds nothing. -/
theorem xorSum_of_zeros {f : ℕ → UInt8} {m : ℕ} :
    ∀ {n : ℕ}, m ≤ n → (∀ k, m ≤ k → k < n → f k = 0) → xorSum f n = xorSum f m
  | 0, hmn, _ => by rw [Nat.le_zero.1 hmn]
  | n + 1, hmn, h => by
    rcases Nat.lt_or_ge n m with hn | hn
    · rw [show m = n + 1 by omega]
    · rw [xorSum, h n hn (Nat.lt_succ_self n), UInt8.xor_zero,
        xorSum_of_zeros hn fun k hk hkn => h k hk (by omega)]

namespace Pbkdf2

/-! ## Equal blocks one after the other -/

theorem length_flatMap_range {f : ℕ → List UInt8} {h : ℕ} (hf : ∀ k, (f k).length = h) :
    ∀ n : ℕ, ((List.range n).flatMap f).length = n * h
  | 0 => by simp
  | n + 1 => by
    rw [List.range_succ, List.flatMap_append, List.length_append, length_flatMap_range hf n]
    simp [hf, Nat.succ_mul]

theorem getD_flatMap_range {f : ℕ → List UInt8} {h : ℕ} (hf : ∀ k, (f k).length = h) :
    ∀ {n p : ℕ}, p < n * h → ((List.range n).flatMap f).getD p 0 = (f (p / h)).getD (p % h) 0
  | 0, p, hp => by simp at hp
  | n + 1, p, hp => by
    have hlen := length_flatMap_range hf n
    rw [Nat.succ_mul] at hp
    rw [List.range_succ, List.flatMap_append, List.flatMap_cons, List.flatMap_nil, List.append_nil,
      List.getD_eq_getElem?_getD]
    rcases Nat.lt_or_ge p (n * h) with hlt | hge
    · rw [List.getElem?_append_left (by omega), ← List.getD_eq_getElem?_getD,
        getD_flatMap_range hf hlt]
    · have hdiv : p / h = n := Nat.div_eq_of_lt_le hge (by rw [Nat.succ_mul]; omega)
      have hmod : p % h = p - n * h := by
        rw [Nat.mod_eq_sub_div_mul, hdiv]
      rw [List.getElem?_append_right (by omega), hlen, ← List.getD_eq_getElem?_getD, hdiv, hmod]

/-! ## The derived key -/

variable (prf : List UInt8 → List UInt8) (salt : List UInt8) (h c : ℕ)

/-- The number of a block in four bytes, the highest first. -/
def be32 (i : ℕ) : List UInt8 :=
  [UInt8.ofNat (i / 2 ^ 24), UInt8.ofNat (i / 2 ^ 16), UInt8.ofNat (i / 2 ^ 8), UInt8.ofNat i]

/-- What the function is applied to for the `j`-th time in block `i`, counted from 0. -/
def input (i j : ℕ) : List UInt8 := prf^[j] (salt ++ be32 i)

/-- Byte `q` of block `i`: the exclusive or of that byte of `c` results. -/
def tByte (i q : ℕ) : UInt8 := xorSum (fun j => (prf (input prf salt i j)).getD q 0) c

/-- Block `i`, of `h` bytes. -/
def t (i : ℕ) : List UInt8 := (List.range h).map (tByte prf salt c i)

/-- The blocks of `h` bytes that hold `n` bytes. -/
def blocks (h n : ℕ) : ℕ := (n + h - 1) / h

/-- The first `n` bytes of the blocks from number 1 on. -/
def derived (n : ℕ) : List UInt8 :=
  ((List.range (blocks h n)).flatMap fun k => t prf salt h c (k + 1)).take n

variable {prf salt h c}

theorem length_t (i : ℕ) : (t prf salt h c i).length = h := by
  simp [t]

theorem le_blocks_mul (hh : 0 < h) (n : ℕ) : n ≤ blocks h n * h := by
  have hmod := Nat.div_add_mod (n + h - 1) h
  have hlt := Nat.mod_lt (n + h - 1) hh
  rw [Nat.mul_comm] at hmod
  rw [blocks]
  omega

theorem mul_lt_of_lt_blocks (hh : 0 < h) {n k : ℕ} (hk : k < blocks h n) : k * h < n := by
  have h1 := (Nat.le_div_iff_mul_le hh).1 (Nat.succ_le_of_lt hk)
  rw [Nat.succ_mul] at h1
  omega

theorem blocks_le (hh : 0 < h) (n : ℕ) : blocks h n ≤ n := by
  rcases Nat.lt_or_ge n (blocks h n) with hlt | hge
  · have h1 := mul_lt_of_lt_blocks hh hlt
    have h2 := Nat.le_mul_of_pos_right n hh
    omega
  · exact hge

theorem div_lt_blocks (hh : 0 < h) {n p : ℕ} (hp : p < n) : p / h < blocks h n :=
  (Nat.div_lt_iff_lt_mul hh).2 (Nat.lt_of_lt_of_le hp (le_blocks_mul hh n))

theorem length_derived (hh : 0 < h) (n : ℕ) : (derived prf salt h c n).length = n := by
  rw [derived, List.length_take, length_flatMap_range fun k => length_t (k + 1)]
  exact Nat.min_eq_left (le_blocks_mul hh n)

theorem getD_derived (hh : 0 < h) {n p : ℕ} (hp : p < n) :
    (derived prf salt h c n).getD p 0 = tByte prf salt c (p / h + 1) (p % h) := by
  rw [derived, List.getD_eq_getElem?_getD, List.getElem?_take_of_lt hp,
    ← List.getD_eq_getElem?_getD,
    getD_flatMap_range (fun k => length_t (k + 1)) (Nat.lt_of_lt_of_le hp (le_blocks_mul hh n)), t,
    List.getD_eq_getElem?_getD, List.getElem?_map, List.getElem?_range (Nat.mod_lt p hh)]
  rfl

/-- Only what the function gives on a set of texts counts, if it stays in the set. -/
theorem derived_congr {prf' : List UInt8 → List UInt8} {P : List UInt8 → Prop}
    (hsalt : ∀ i, P (salt ++ be32 i)) (hprf : ∀ x, P x → prf x = prf' x ∧ P (prf x)) (n : ℕ) :
    derived prf salt h c n = derived prf' salt h c n := by
  have hinput : ∀ i j, input prf salt i j = input prf' salt i j ∧ P (input prf salt i j) := by
    intro i j
    induction j with
    | zero => exact ⟨rfl, hsalt i⟩
    | succ j ih =>
      simp only [input, Function.iterate_succ_apply'] at ih ⊢
      rw [← ih.1]
      exact hprf _ ih.2
  have ht : t prf salt h c = t prf' salt h c := by
    funext i
    refine List.map_congr_left fun q _ => xorSum_congr fun j _ => ?_
    rw [← (hinput i j).1, (hprf _ (hinput i j).2).1]
  rw [derived, derived, ht]

/-- A shorter key is the front of a longer one. -/
theorem take_derived (hh : 0 < h) {m n : ℕ} (hmn : m ≤ n) :
    (derived prf salt h c n).take m = derived prf salt h c m := by
  obtain ⟨j, hj⟩ : ∃ j, blocks h n = blocks h m + j :=
    Nat.exists_eq_add_of_le (Nat.div_le_div_right (by omega))
  have hle : m ≤ ((List.range (blocks h m)).flatMap
      fun k => t prf salt h c (k + 1)).length := by
    rw [length_flatMap_range fun k => length_t (k + 1)]
    exact le_blocks_mul hh m
  rw [derived, derived, List.take_take, Nat.min_eq_left hmn, hj, List.range_add,
    List.flatMap_append, List.take_append_of_le_length hle]

end Pbkdf2
