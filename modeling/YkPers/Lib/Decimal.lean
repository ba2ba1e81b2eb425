import Mathlib.Algebra.Group.Nat.Defs
import Mathlib.Data.List.Basic
import Mathlib.Data.Nat.Init

/-!
# Decimal numerals

`Nat.toDigits 10` writes a number without leading zeros, so that the longer of two numerals is the
larger number. Filled up with zeros, a numeral of a given width denotes the same number. With a
minus, a numeral denotes an integer, and only one (`Denotes.unique`).
-/

namespace Decimal

open Nat

/-- The number that digits denote. -/
def value (ds : List Char) : ℕ := ofDigitChars 10 ds 0

theorem value_cons (c : Char) (cs : List Char) :
    value (c :: cs) = 10 ^ cs.length * (c.toNat - 48) + value cs := by
  rw [value, ofDigitChars_cons, Nat.mul_zero, Nat.zero_add, ofDigitChars_eq_ofDigitChars_zero]
  rfl

theorem isDigit_iff {c : Char} : c.isDigit ↔ 48 ≤ c.toNat ∧ c.toNat ≤ 57 := by
  rw [Char.isDigit, Bool.and_eq_true, decide_eq_true_iff, decide_eq_true_iff]
  exact Iff.rfl

theorem value_lt : ∀ {ds : List Char}, (∀ c ∈ ds, c.isDigit) → value ds < 10 ^ ds.length
  | [], _ => by decide
  | c :: ds, h => by
    have hc := isDigit_iff.1 (h c List.mem_cons_self)
    have ih := value_lt fun d hd => h d (List.mem_cons_of_mem c hd)
    calc value (c :: ds) = 10 ^ ds.length * (c.toNat - 48) + value ds := value_cons c ds
      _ < 10 ^ ds.length * (c.toNat - 48) + 10 ^ ds.length := Nat.add_lt_add_left ih _
      _ = 10 ^ ds.length * (c.toNat - 48 + 1) := by rw [Nat.mul_succ]
      _ ≤ 10 ^ ds.length * 10 := Nat.mul_le_mul_left _ (by omega)
      _ = 10 ^ (c :: ds).length := by rw [List.length_cons, Nat.pow_succ]

/-- A larger first digit outweighs all that follow. -/
theorem value_cons_lt {c d : Char} {cs ds : List Char} (hcs : ∀ x ∈ cs, x.isDigit)
    (hlen : cs.length = ds.length) (h : c.toNat - 48 < d.toNat - 48) :
    value (c :: cs) < value (d :: ds) := by
  calc value (c :: cs) = 10 ^ cs.length * (c.toNat - 48) + value cs := value_cons c cs
    _ < 10 ^ cs.length * (c.toNat - 48) + 10 ^ cs.length := Nat.add_lt_add_left (value_lt hcs) _
    _ = 10 ^ ds.length * (c.toNat - 48 + 1) := by rw [Nat.mul_succ, hlen]
    _ ≤ 10 ^ ds.length * (d.toNat - 48) := Nat.mul_le_mul_left _ h
    _ ≤ value (d :: ds) := by rw [value_cons]; exact Nat.le_add_right _ _

theorem isDigit_of_mem {n : ℕ} : ∀ c ∈ toDigits 10 n, c.isDigit := fun _ =>
  isDigit_of_mem_toDigits (by decide) (by decide)

theorem lt_of_length_lt {m n : ℕ} (h : (toDigits 10 m).length < (toDigits 10 n).length) :
    m < n := by
  by_contra hle
  have hpos := length_toDigits_pos (b := 10) (n := m)
  have hm := (length_toDigits_le_iff (b := 10) (by decide) hpos).1 (Nat.le_refl _)
  have hn := (length_toDigits_le_iff (b := 10) (n := n) (by decide) hpos).2 (by omega)
  omega

theorem head?_toDigits {n : ℕ} (hn : 0 < n) : (toDigits 10 n).head? ≠ some '0' := by
  induction n using Nat.strong_induction_on with
  | _ n ih =>
    by_cases h : n < 10
    · rw [toDigits_of_lt_base h, List.head?_cons, ne_eq, Option.some.injEq]
      intro h0
      have hchar := congrArg Char.toNat h0
      rw [toNat_digitChar_of_lt_ten h] at hchar
      simp at hchar
      omega
    · rw [toDigits_of_base_le (by decide) (by omega),
        List.head?_append_of_ne_nil _ toDigits_ne_nil]
      exact ih (n / 10) (by omega) (by omega)

/-! ## A fixed width -/

theorem value_replicate_zero (n : ℕ) (ds : List Char) :
    value (List.replicate n '0' ++ ds) = value ds := by
  rw [value, ofDigitChars_append, ofDigitChars_replicate_zero, Nat.mul_zero]
  rfl

/-- `%0nu` of a number of at most `n` digits. -/
theorem leftpad_digits {n k : ℕ} (hn : 0 < n) (hk : k < 10 ^ n) :
    (List.leftpad n '0' (toDigits 10 k)).length = n
      ∧ (∀ c ∈ List.leftpad n '0' (toDigits 10 k), c.isDigit)
      ∧ value (List.leftpad n '0' (toDigits 10 k)) = k := by
  have hlen := (length_toDigits_le_iff (b := 10) (n := k) (by decide) hn).2 hk
  refine ⟨?_, ?_, ?_⟩
  · rw [List.leftpad, List.length_append, List.length_replicate]
    omega
  · intro c hc
    rcases List.mem_append.1 hc with h | h
    · rw [List.eq_of_mem_replicate h]
      decide
    · exact isDigit_of_mem c h
  · rw [List.leftpad, value_replicate_zero, value, ofDigitChars_ten_toDigits]

/-- Digits that denote the same number in the same width are the same. -/
theorem eq_of_value : ∀ {cs ds : List Char}, (∀ x ∈ cs, x.isDigit) → (∀ x ∈ ds, x.isDigit) →
    cs.length = ds.length → value cs = value ds → cs = ds
  | [], [], _, _, _, _ => rfl
  | c :: cs, d :: ds, hcs, hds, hlen, h => by
    have htail : cs.length = ds.length := Nat.succ.inj hlen
    have hcs' : ∀ x ∈ cs, x.isDigit := fun x hx => hcs x (List.mem_cons_of_mem c hx)
    have hds' : ∀ x ∈ ds, x.isDigit := fun x hx => hds x (List.mem_cons_of_mem d hx)
    have hc := isDigit_iff.1 (hcs c List.mem_cons_self)
    have hd := isDigit_iff.1 (hds d List.mem_cons_self)
    have hfirst : c.toNat - 48 = d.toNat - 48 := by
      rcases Nat.lt_trichotomy (c.toNat - 48) (d.toNat - 48) with hlt | heq | hlt
      · exact absurd h (Nat.ne_of_lt (value_cons_lt hcs' htail hlt))
      · exact heq
      · exact absurd h.symm (Nat.ne_of_lt (value_cons_lt hds' htail.symm hlt))
    have hvalue : value cs = value ds := by
      rw [value_cons, value_cons, hfirst, htail] at h
      exact Nat.add_left_cancel h
    rw [eq_of_value hcs' hds' htail hvalue, Char.toNat_inj.1 (show c.toNat = d.toNat by omega)]

/-- The last `k` digits of a number, one by one. -/
def lastDigits (k n : ℕ) : List Char :=
  (List.range k).reverse.map fun i => digitChar (n / 10 ^ i % 10)

theorem lastDigits_succ (k n : ℕ) :
    lastDigits (k + 1) n = digitChar (n / 10 ^ k % 10) :: lastDigits k n := by
  simp [lastDigits, List.range_succ]

theorem length_lastDigits (k n : ℕ) : (lastDigits k n).length = k := by simp [lastDigits]

theorem toNat_digitChar_mod (n : ℕ) : (digitChar (n % 10)).toNat = 48 + n % 10 :=
  toNat_digitChar_of_lt_ten (Nat.mod_lt n (by decide))

theorem isDigit_lastDigits (k n : ℕ) : ∀ c ∈ lastDigits k n, c.isDigit := by
  intro c hc
  obtain ⟨i, -, rfl⟩ := List.mem_map.1 hc
  rw [isDigit_iff, toNat_digitChar_mod]
  omega

theorem value_lastDigits (n : ℕ) : ∀ k, value (lastDigits k n) = n % 10 ^ k
  | 0 => (Nat.mod_one n).symm
  | k + 1 => by
    rw [lastDigits_succ, value_cons, length_lastDigits, toNat_digitChar_mod, value_lastDigits n k,
      Nat.add_sub_cancel_left, Nat.mod_pow_succ, Nat.add_comm]

theorem lastDigits_eq_leftpad {k n : ℕ} (hk : 0 < k) (hn : n < 10 ^ k) :
    lastDigits k n = List.leftpad k '0' (toDigits 10 n) := by
  obtain ⟨hlen, hdigit, hvalue⟩ := leftpad_digits hk hn
  refine eq_of_value (isDigit_lastDigits k n) hdigit ?_ ?_
  · rw [length_lastDigits, hlen]
  · rw [value_lastDigits, hvalue, Nat.mod_eq_of_lt hn]

theorem digitChar_sub {c : Char} (hc : c.isDigit) : digitChar (c.toNat - 48) = c := by
  have h := isDigit_iff.1 hc
  have hn : c.toNat - 48 < 10 := by omega
  apply Char.toNat_inj.1
  rw [toNat_digitChar_of_lt_ten hn]
  omega

/-! ## A sign -/

/-- `%d`. -/
def ofInt : ℤ → List Char
  | .ofNat n => toDigits 10 n
  | .negSucc n => '-' :: toDigits 10 (n + 1)

/-- Digits denote their value, and with a minus before them its negative. -/
def Denotes (text : List Char) (z : ℤ) : Prop :=
  ∃ ds, ds ≠ [] ∧ (∀ c ∈ ds, c.isDigit) ∧
    (text = ds ∧ z = value ds ∨ text = '-' :: ds ∧ z = -value ds)

theorem value_toDigits (n : ℕ) : value (toDigits 10 n) = n := ofDigitChars_ten_toDigits

theorem denotes_ofInt : ∀ z : ℤ, Denotes (ofInt z) z
  | .ofNat n => ⟨_, toDigits_ne_nil, isDigit_of_mem, .inl ⟨rfl, by rw [value_toDigits]; rfl⟩⟩
  | .negSucc n => ⟨_, toDigits_ne_nil, isDigit_of_mem, .inr ⟨rfl, by rw [value_toDigits]; rfl⟩⟩

/-- A minus is no digit. -/
theorem minus_ne {cs ds : List Char} (hcs : ∀ c ∈ cs, c.isDigit) : cs ≠ '-' :: ds := by
  rintro rfl
  exact absurd (hcs '-' List.mem_cons_self) (by decide)

theorem Denotes.unique {text : List Char} {y z : ℤ} (hy : Denotes text y) (hz : Denotes text z) :
    y = z := by
  obtain ⟨cs, -, hcs, ⟨rfl, rfl⟩ | ⟨rfl, rfl⟩⟩ := hy <;>
    obtain ⟨ds, -, hds, ⟨h, rfl⟩ | ⟨h, rfl⟩⟩ := hz
  · rw [h]
  · exact absurd h (minus_ne hcs)
  · exact absurd h.symm (minus_ne hds)
  · rw [(List.cons.inj h).2]

end Decimal
