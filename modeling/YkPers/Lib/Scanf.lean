import Mathlib.Data.List.Basic
import Mathlib.Algebra.Group.Int.Defs

/-!
# Integer conversions of `sscanf`

A directive skips white space and takes a sign, for base 16 a `0x`, and as many digits as there
are; it fails where no digit is there.
-/

namespace Scanf

def isSpace (c : Char) : Bool := c = ' ' || (9 ≤ c.toNat && c.toNat ≤ 13)

def digit (base : ℕ) (c : Char) : Option ℕ :=
  let d := if '0' ≤ c ∧ c ≤ '9' then c.toNat - 48
    else if 'a' ≤ c ∧ c ≤ 'f' then c.toNat - 87
    else if 'A' ≤ c ∧ c ≤ 'F' then c.toNat - 55
    else base
  if d < base then some d else none

/-- The digits in front, read on from `acc`, and what follows them. -/
def digits (base : ℕ) : ℕ → List Char → ℕ × List Char
  | acc, [] => (acc, [])
  | acc, c :: cs =>
    match digit base c with
    | some d => digits base (acc * base + d) cs
    | none => (acc, c :: cs)

def numeral (base : ℕ) : List Char → Option (ℕ × List Char)
  | [] => none
  | c :: cs => (digit base c).map fun d => digits base d cs

/-- The prefix that base 16 allows. -/
def skipBase : ℕ → List Char → List Char
  | 16, '0' :: 'x' :: cs => cs
  | 16, '0' :: 'X' :: cs => cs
  | _, cs => cs

def signed (base : ℕ) : List Char → Option (ℤ × List Char)
  | '-' :: cs => (numeral base (skipBase base cs)).map fun p => (-(p.1 : ℤ), p.2)
  | '+' :: cs => (numeral base (skipBase base cs)).map fun p => ((p.1 : ℤ), p.2)
  | cs => (numeral base (skipBase base cs)).map fun p => ((p.1 : ℤ), p.2)

/-- The value a directive reads, and what follows; `none` where it fails. -/
def int (base : ℕ) (s : List Char) : Option (ℤ × List Char) := signed base (s.dropWhile isSpace)

def colon : List Char → Option (List Char)
  | ':' :: cs => some cs
  | _ => none

/-! ## Numerals -/

section Digits

variable {base : ℕ}

/-- The number that digits in front of others denote, read on from `acc`. -/
def value (base acc : ℕ) (ds : List Char) : ℕ :=
  ds.foldl (fun n c => n * base + (digit base c).getD 0) acc

/-- What follows a numeral does not read on. -/
def Stops (base : ℕ) (rest : List Char) : Prop :=
  ∀ c ∈ rest.head?, digit base c = none ∧ c ≠ 'x' ∧ c ≠ 'X'

theorem digits_append {ds rest : List Char} (hd : ∀ c ∈ ds, (digit base c).isSome)
    (hrest : Stops base rest) (acc : ℕ) :
    digits base acc (ds ++ rest) = (value base acc ds, rest) := by
  induction ds generalizing acc with
  | nil =>
    cases rest with
    | nil => rfl
    | cons c cs => simp only [List.nil_append, digits, (hrest c rfl).1]; rfl
  | cons c cs ih =>
    obtain ⟨d, hc⟩ := Option.isSome_iff_exists.1 (hd c List.mem_cons_self)
    simp only [List.cons_append, digits, hc]
    rw [ih fun x hx => hd x (List.mem_cons_of_mem c hx)]
    simp [value, hc]

theorem numeral_append {ds rest : List Char} (hne : ds ≠ [])
    (hd : ∀ c ∈ ds, (digit base c).isSome) (hrest : Stops base rest) :
    numeral base (ds ++ rest) = some (value base 0 ds, rest) := by
  cases ds with
  | nil => exact absurd rfl hne
  | cons c cs =>
    obtain ⟨d, hc⟩ := Option.isSome_iff_exists.1 (hd c List.mem_cons_self)
    rw [List.cons_append, numeral, hc, Option.map_some,
      digits_append (fun x hx => hd x (List.mem_cons_of_mem c hx)) hrest]
    simp [value, hc]

/-- What is in front of the digits, or a space, is no digit. -/
theorem digit_eq_none {c : Char} (hc : c ∈ ['+', '-', 'x', 'X'] ∨ isSpace c) :
    digit base c = none := by
  have hval : ¬ ('0' ≤ c ∧ c ≤ '9') ∧ ¬ ('a' ≤ c ∧ c ≤ 'f') ∧ ¬ ('A' ≤ c ∧ c ≤ 'F') := by
    rcases hc with hc | hc
    · simp only [List.mem_cons, List.not_mem_nil, or_false] at hc
      rcases hc with rfl | rfl | rfl | rfl <;> decide
    · simp only [isSpace, Bool.or_eq_true, Bool.and_eq_true, decide_eq_true_iff] at hc
      simp only [Char.le_def, UInt32.le_iff_toNat_le]
      rcases hc with rfl | ⟨h1, h2⟩
      · decide
      · have hlow : c.val.toNat ≤ 13 := h2
        refine ⟨fun h => ?_, fun h => ?_, fun h => ?_⟩ <;>
          exact absurd (Nat.le_trans h.1 hlow) (by decide)
  simp [digit, hval.1, hval.2.1, hval.2.2]

theorem not_isSpace {c : Char} (hc : (digit base c).isSome) :
    isSpace c = false := by
  by_contra h
  rw [digit_eq_none (.inr (by simpa using h))] at hc
  cases hc

theorem digit_ne {c : Char} (hc : (digit base c).isSome) :
    c ∉ ['+', '-', 'x', 'X'] := fun h => by
  rw [digit_eq_none (.inl h)] at hc
  cases hc

/-- Nothing is skipped in front of digits: the character behind the first is no `x`. -/
theorem skipBase_append {ds rest : List Char} (hne : ds ≠ [])
    (hd : ∀ c ∈ ds, (digit base c).isSome) (hrest : Stops base rest) :
    skipBase base (ds ++ rest) = ds ++ rest := by
  have hnext : ∀ a b cs, ds ++ rest = a :: b :: cs → b ≠ 'x' ∧ b ≠ 'X' := by
    intro a b cs h
    match ds, hne, hd, h with
    | [_], _, _, h =>
      have hb : rest.head? = some b := congrArg List.head? (List.cons.inj h).2
      exact (hrest b hb).2
    | _ :: d :: _, _, hd, h =>
      obtain rfl : d = b := (List.cons.inj (List.cons.inj h).2).1
      have hmem := digit_ne (hd d (List.mem_cons_of_mem _ List.mem_cons_self))
      exact ⟨fun hx => hmem (by simp [hx]), fun hx => hmem (by simp [hx])⟩
  unfold skipBase
  split
  · exact absurd rfl (hnext _ _ _ (by assumption)).1
  · exact absurd rfl (hnext _ _ _ (by assumption)).2
  · rfl

end Digits

inductive Sign where
  | none | plus | minus
  deriving DecidableEq

def Sign.text : Sign → List Char
  | none => []
  | plus => ['+']
  | minus => ['-']

def Sign.apply : Sign → ℕ → ℤ
  | minus, n => -n
  | _, n => n

/-- A numeral of any size; in base 16 there may be a `0x`. -/
structure Numeral (base : ℕ) where
  sign : Sign
  marked : Bool
  digits : List Char
  marked_base : marked = true → base = 16
  ne_nil : digits ≠ []
  isDigit : ∀ c ∈ digits, (digit base c).isSome

namespace Numeral

variable {base : ℕ} (n : Numeral base)

/-- The numeral without its sign. -/
def unsigned : List Char := (if n.marked then ['0', 'x'] else []) ++ n.digits

def text : List Char := n.sign.text ++ n.unsigned

/-- The number as it is written. -/
def toInt : ℤ := n.sign.apply (value base 0 n.digits)

variable {n} {rest : List Char}

theorem numeral_unsigned (hrest : Stops base rest) :
    numeral base (skipBase base (n.unsigned ++ rest)) = some (value base 0 n.digits, rest) := by
  have hread := numeral_append n.ne_nil n.isDigit hrest
  unfold unsigned
  by_cases hm : n.marked = true
  · obtain rfl := n.marked_base hm
    rw [if_pos hm]
    exact hread
  · rw [if_neg hm, List.nil_append, skipBase_append n.ne_nil n.isDigit hrest, hread]

theorem head?_unsigned :
    ∃ c cs, n.unsigned = c :: cs ∧ isSpace c = false ∧ c ≠ '-' ∧ c ≠ '+' := by
  unfold unsigned
  by_cases hm : n.marked = true
  · rw [if_pos hm]
    exact ⟨'0', _, rfl, by decide⟩
  · rw [if_neg hm, List.nil_append]
    obtain ⟨c, cs, hc⟩ := List.exists_cons_of_ne_nil n.ne_nil
    have hd := n.isDigit c (by rw [hc]; exact List.mem_cons_self)
    have hmem := digit_ne hd
    exact ⟨c, cs, hc, not_isSpace hd, fun h => hmem (by simp [h]), fun h => hmem (by simp [h])⟩

/-- A directive reads a numeral as it is written. -/
theorem int_text (hrest : Stops base rest) :
    int base (n.text ++ rest) = some (n.toInt, rest) := by
  have hread := numeral_unsigned hrest (n := n)
  obtain ⟨c, cs, hc, hspace, hminus, hplus⟩ := n.head?_unsigned
  unfold int text toInt
  cases n.sign with
  | plus =>
    show signed base ('+' :: (n.unsigned ++ rest)) = _
    rw [signed, hread]
    rfl
  | minus =>
    show signed base ('-' :: (n.unsigned ++ rest)) = _
    rw [signed, hread]
    rfl
  | none =>
    rw [hc] at hread
    simp only [Sign.text, List.nil_append, hc, List.cons_append] at hread ⊢
    rw [List.dropWhile_cons_of_neg (by rw [hspace]; exact Bool.false_ne_true), signed, hread]
    · rfl
    · exact fun _ h => hminus (List.cons.inj h).1
    · exact fun _ h => hplus (List.cons.inj h).1

end Numeral

end Scanf
