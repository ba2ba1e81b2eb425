import Mathlib.Data.Nat.NthRoot.Defs
import Mathlib.Data.Nat.Nth
import Mathlib.Data.Nat.Prime.Defs
import YkPers.Lib.BlockHash

/-!
# The secure hash standard, FIPS 180-2

The five hashes on strings of bits. The constants of SHA-2 are what the standard says they are,
bits of the roots of the first primes, and the words of a schedule are given by their recurrence;
`foldl_extend` is the loop that computes such a sequence into an array, and `nth_prime` finds the
primes by trial division.
-/

namespace SecureHash

open BlockHash

/-! ## Words -/

section Words

variable {w : ℕ}

def ch (x y z : BitVec w) : BitVec w := (x &&& y) ^^^ (~~~x &&& z)

def maj (x y z : BitVec w) : BitVec w := (x &&& y) ^^^ (x &&& z) ^^^ (y &&& z)

def parity (x y z : BitVec w) : BitVec w := x ^^^ y ^^^ z

/-- The number that bytes are, the highest first. -/
def bytesValue (bs : List UInt8) : ℕ := bs.foldl (fun v b => 256 * v + b.toNat) 0

/-- Word `t` of a block. -/
def blockWord (w : ℕ) (block : List UInt8) (t : ℕ) : BitVec w :=
  BitVec.ofNat w (bytesValue ((block.drop (t * (w / 8))).take (w / 8)))

def wordBytes (x : BitVec w) : List UInt8 := beBytes (w / 8) x.toNat

end Words

/-- The hash with a compression function on blocks of 16 words of `w` bits, an initial value and
the size of its result. The length of the message is in two words. -/
def digest {w k : ℕ} (compress : Vector (BitVec w) k → List UInt8 → Vector (BitVec w) k)
    (initial : Vector (BitVec w) k) (size : ℕ) (M : List Bool) : List UInt8 :=
  ((blockFold (2 * w) compress initial (pack (pad (16 * w) (2 * w) M))).toList.flatMap
    wordBytes).take size

/-! ## SHA-1 -/

def sha1Word (block : List UInt8) (t : ℕ) : BitVec 32 :=
  if t < 16 then blockWord 32 block t
  else (sha1Word block (t - 3) ^^^ sha1Word block (t - 8) ^^^ sha1Word block (t - 14)
    ^^^ sha1Word block (t - 16)).rotateLeft 1

def sha1Function (t : ℕ) : BitVec 32 → BitVec 32 → BitVec 32 → BitVec 32 :=
  if t < 20 then ch else if t < 40 then parity else if t < 60 then maj else parity

/-- Thirty bits behind the point of the square roots of 2, 3, 5 and 10, and the bits before it. -/
def sha1Constant (t : ℕ) : BitVec 32 :=
  BitVec.ofNat 32 (Nat.nthRoot 2
    ((if t < 20 then 2 else if t < 40 then 3 else if t < 60 then 5 else 10) * 2 ^ 60))

def sha1Round (block : List UInt8) (v : Vector (BitVec 32) 5) (t : ℕ) : Vector (BitVec 32) 5 :=
  #v[(v.get 0).rotateLeft 5 + sha1Function t (v.get 1) (v.get 2) (v.get 3) + v.get 4
      + sha1Constant t + sha1Word block t,
    v.get 0, (v.get 1).rotateLeft 30, v.get 2, v.get 3]

def sha1Compress (H : Vector (BitVec 32) 5) (block : List UInt8) : Vector (BitVec 32) 5 :=
  Vector.zipWith (· + ·) H ((List.range 80).foldl (sha1Round block) H)

def sha1Initial : Vector (BitVec 32) 5 :=
  #v[0x67452301#32, 0xefcdab89#32, 0x98badcfe#32, 0x10325476#32, 0xc3d2e1f0#32]

def sha1 : List Bool → List UInt8 := digest sha1Compress sha1Initial 20

/-! ## SHA-2 -/

/-- The number of rounds and the four functions of a hash on words of `w` bits. -/
structure Sha2 (w : ℕ) where
  rounds : ℕ
  Sigma0 : BitVec w → BitVec w
  Sigma1 : BitVec w → BitVec w
  sigma0 : BitVec w → BitVec w
  sigma1 : BitVec w → BitVec w

def sha2Words32 : Sha2 32 where
  rounds := 64
  Sigma0 x := x.rotateRight 2 ^^^ x.rotateRight 13 ^^^ x.rotateRight 22
  Sigma1 x := x.rotateRight 6 ^^^ x.rotateRight 11 ^^^ x.rotateRight 25
  sigma0 x := x.rotateRight 7 ^^^ x.rotateRight 18 ^^^ x >>> 3
  sigma1 x := x.rotateRight 17 ^^^ x.rotateRight 19 ^^^ x >>> 10

def sha2Words64 : Sha2 64 where
  rounds := 80
  Sigma0 x := x.rotateRight 28 ^^^ x.rotateRight 34 ^^^ x.rotateRight 39
  Sigma1 x := x.rotateRight 14 ^^^ x.rotateRight 18 ^^^ x.rotateRight 41
  sigma0 x := x.rotateRight 1 ^^^ x.rotateRight 8 ^^^ x >>> 7
  sigma1 x := x.rotateRight 19 ^^^ x.rotateRight 61 ^^^ x >>> 6

/-- The first `w` bits of the fractional part of the `n`th root of prime `t`, counted from 0. -/
noncomputable def primeRoot (n w t : ℕ) : BitVec w :=
  BitVec.ofNat w (Nat.nthRoot n (Nat.nth Nat.Prime t * 2 ^ (n * w)))

section Sha2

variable {w : ℕ} (P : Sha2 w) (block : List UInt8)

def sha2Word (t : ℕ) : BitVec w :=
  if t < 16 then blockWord w block t
  else P.sigma1 (sha2Word (t - 2)) + sha2Word (t - 7) + P.sigma0 (sha2Word (t - 15))
    + sha2Word (t - 16)

noncomputable def sha2Round (v : Vector (BitVec w) 8) (t : ℕ) : Vector (BitVec w) 8 :=
  let t1 := v.get 7 + P.Sigma1 (v.get 4) + ch (v.get 4) (v.get 5) (v.get 6) + primeRoot 3 w t
    + sha2Word P block t
  let t2 := P.Sigma0 (v.get 0) + maj (v.get 0) (v.get 1) (v.get 2)
  #v[t1 + t2, v.get 0, v.get 1, v.get 2, v.get 3 + t1, v.get 4, v.get 5, v.get 6]

noncomputable def sha2Compress (H : Vector (BitVec w) 8) (block : List UInt8) :
    Vector (BitVec w) 8 :=
  Vector.zipWith (· + ·) H ((List.range P.rounds).foldl (sha2Round P block) H)

end Sha2

/-- The second 32 bits of the square roots of the ninth to the sixteenth prime. -/
noncomputable def sha224Initial : Vector (BitVec 32) 8 :=
  Vector.ofFn fun i => (primeRoot 2 64 (i + 8)).setWidth 32

noncomputable def sha256Initial : Vector (BitVec 32) 8 := Vector.ofFn fun i => primeRoot 2 32 i

noncomputable def sha384Initial : Vector (BitVec 64) 8 :=
  Vector.ofFn fun i => primeRoot 2 64 (i + 8)

noncomputable def sha512Initial : Vector (BitVec 64) 8 := Vector.ofFn fun i => primeRoot 2 64 i

noncomputable def sha224 : List Bool → List UInt8 :=
  digest (sha2Compress sha2Words32) sha224Initial 28

noncomputable def sha256 : List Bool → List UInt8 :=
  digest (sha2Compress sha2Words32) sha256Initial 32

noncomputable def sha384 : List Bool → List UInt8 :=
  digest (sha2Compress sha2Words64) sha384Initial 48

noncomputable def sha512 : List Bool → List UInt8 :=
  digest (sha2Compress sha2Words64) sha512Initial 64

/-! ## Computing with the standard -/

/-- The loop that computes a sequence from its earlier members, one after the other. -/
theorem foldl_extend {α : Type*} {s : ℕ → α} {f : List α → ℕ → α} {n : ℕ} :
    ∀ m : ℕ, (∀ t, n ≤ t → t < n + m → f ((List.range t).map s) t = s t) →
      (List.range' n m).foldl (fun l t => l ++ [f l t]) ((List.range n).map s)
        = (List.range (n + m)).map s
  | 0, _ => rfl
  | m + 1, h => by
    rw [List.range'_concat, List.foldl_append, foldl_extend m fun t h1 h2 => h t h1 (by omega),
      Nat.mul_comm, Nat.mul_one, List.foldl_cons, List.foldl_nil, h (n + m) (by omega) (by omega),
      ← Nat.add_assoc, List.range_succ, List.map_append, List.map_singleton]

theorem getD_map_range {α : Type*} (s : ℕ → α) {n i : ℕ} (d : α) (h : i < n) :
    ((List.range n).map s).getD i d = s i := by
  rw [List.getD_eq_getElem?_getD, List.getElem?_map, List.getElem?_range h]
  rfl

/-- The members below `n` that satisfy `p`, in their order, are the first ones that do. -/
theorem nth_of_filter_range {p : ℕ → Prop} [DecidablePred p] {t x : ℕ} :
    ∀ {n : ℕ}, ((List.range n).filter fun i => p i)[t]? = some x → Nat.nth p t = x
  | 0, h => by simp at h
  | n + 1, h => by
    rw [List.range_succ, List.filter_append] at h
    rcases Nat.lt_or_ge t ((List.range n).filter fun i => p i).length with hlt | hge
    · rw [List.getElem?_append_left hlt] at h
      exact nth_of_filter_range h
    · rw [List.getElem?_append_right hge] at h
      obtain ⟨hx, -⟩ := List.mem_filter.1 (List.mem_of_getElem? h)
      obtain rfl := List.mem_singleton.1 hx
      have hp : p x := of_decide_eq_true (List.mem_filter.1 (List.mem_of_getElem? h)).2
      have ht : t = Nat.count p x := by
        have hlen := Nat.lt_of_lt_of_le (List.getElem?_eq_some_iff.1 h).1
          (List.length_filter_le _ _)
        rw [List.length_singleton] at hlen
        rw [Nat.count, List.countP_eq_length_filter]
        omega
      rw [ht, Nat.nth_count hp]

/-- No number from 2 to 20 that is smaller divides it. -/
def trial (n : ℕ) : Bool := 2 ≤ n && (List.range' 2 19).all fun m => n ≤ m || n % m != 0

theorem trial_iff_prime {n : ℕ} (hn : n < 441) : trial n = true ↔ n.Prime := by
  have htrial : trial n = true ↔ 2 ≤ n ∧ ∀ m, 2 ≤ m → m < 21 → n ≤ m ∨ n % m ≠ 0 := by
    simp only [trial, Bool.and_eq_true, decide_eq_true_eq, List.all_eq_true, List.mem_range'_1,
      Bool.or_eq_true, bne_iff_ne, and_imp]
  rw [htrial]
  constructor
  · rintro ⟨h2, h⟩
    refine Nat.prime_def_le_sqrt.2 ⟨h2, fun m hm hsqrt hdvd => ?_⟩
    have hle : m * m ≤ n := Nat.le_sqrt.1 hsqrt
    have h21 : m < 21 := by
      by_contra h21
      have h21 := Nat.not_lt.1 h21
      exact Nat.not_lt.2 (Nat.le_trans (Nat.mul_le_mul h21 h21) hle) hn
    have hlt : m < n := Nat.lt_of_lt_of_le (by omega) (Nat.le_trans (Nat.mul_le_mul_left m hm) hle)
    exact (h m hm h21).elim (Nat.not_le.2 hlt) fun h0 => h0 (Nat.mod_eq_zero_of_dvd hdvd)
  · intro hp
    refine ⟨hp.two_le, fun m hm _ => or_iff_not_imp_left.2 fun hlt h0 => ?_⟩
    exact (Nat.prime_def_lt'.1 hp).2 m hm (Nat.not_le.1 hlt) (Nat.dvd_of_mod_eq_zero h0)

theorem nth_prime {t x : ℕ} (h : ((List.range 441).filter trial)[t]? = some x) :
    Nat.nth Nat.Prime t = x := by
  refine nth_of_filter_range (n := 441) ?_
  rwa [List.filter_congr fun n hn => ?_]
  rw [Bool.eq_iff_iff, decide_eq_true_iff, trial_iff_prime (List.mem_range.1 hn)]

end SecureHash
