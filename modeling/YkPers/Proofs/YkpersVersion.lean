import Mathlib.Data.List.Lex
import YkPers.YkpersVersion

/-!
# Versions compare number by number

Two versions are their first numbers and what follows them behind a dot. A round of the loop
settles the comparison where the numbers differ, and otherwise leaves what follows.
-/

namespace YkPers

open CString Decimal Nat

/-- The numbers in decimal, joined by dots. -/
def dotted (v : List ℕ) : List Char := ['.'].intercalate (v.map (toDigits 10))

/-- What follows the first number. -/
def afterFirst : List ℕ → List Char
  | [] => []
  | n :: v => '.' :: (toDigits 10 n ++ afterFirst v)

theorem dotted_cons : ∀ (n : ℕ) (v : List ℕ), dotted (n :: v) = toDigits 10 n ++ afterFirst v
  | n, [] => by simp [dotted, afterFirst]
  | n, k :: v => by
    have htail := dotted_cons k v
    rw [dotted, List.map_cons, List.map_cons, List.intercalate_cons_cons]
    rw [dotted, List.map_cons] at htail
    rw [htail, afterFirst]
    simp

theorem mem_digits {c : Char} (h : c.isDigit) : c ∈ digits := by
  obtain ⟨hlo, hhi⟩ := isDigit_iff.1 h
  have hc : c = digitChar (c.toNat - 48) := by
    apply Char.toNat_inj.1
    rw [toNat_digitChar_of_lt_ten (by omega)]
    omega
  rw [hc]
  exact (by decide : ∀ k < 10, digitChar k ∈ digits) _ (by omega)

theorem head?_afterFirst (v : List ℕ) : ∀ c ∈ (afterFirst v).head?, c ∉ digits := by
  cases v with
  | nil => simp [afterFirst]
  | cons n v =>
    rw [afterFirst, List.head?_cons]
    rintro c ⟨⟩
    decide

/-- A round tells `m` from `n`, or goes on at `next` where they are equal. -/
def Judges (round : Except ℤ (List Char × List Char)) (m n : ℕ) (next : List Char × List Char) :
    Prop :=
  (m < n ∧ ∃ ret < 0, round = .error ret) ∨ (m = n ∧ round = .ok next)
    ∨ (n < m ∧ ∃ ret > 0, round = .error ret)

section

variable {r r' : List Char} (hr : ∀ c ∈ r.head?, c ∉ digits) (hr' : ∀ c ∈ r'.head?, c ∉ digits)

include hr in
theorem strspn_toDigits (n : ℕ) : strspn (toDigits 10 n ++ r) digits = (toDigits 10 n).length :=
  strspn_append (fun c hc => mem_digits (isDigit_of_mem c hc)) hr

include hr hr'

theorem compareDigits_judges (m n : ℕ) :
    Judges (compareDigits (toDigits 10 m ++ r) (toDigits 10 n ++ r')) m n (r, r') := by
  unfold compareDigits
  simp only [strspn_toDigits hr, strspn_toDigits hr']
  split_ifs with hlt hgt hret
  · exact .inl ⟨lt_of_length_lt hlt, -1, by decide, rfl⟩
  · exact .inr (.inr ⟨lt_of_length_lt hgt, 1, by decide, rfl⟩)
  all_goals
    have hlen : (toDigits 10 m).length = (toDigits 10 n).length := by omega
    have htells := strcmp_toDigits_tells hlen
    rw [strncmp_append _ _ _ _ hlen] at hret
  · rw [strncmp_append _ _ _ _ hlen]
    rcases htells with ⟨hmn, hneg⟩ | ⟨-, hzero⟩ | ⟨hnm, hpos⟩
    · exact .inl ⟨hmn, _, hneg, rfl⟩
    · exact absurd hzero hret
    · exact .inr (.inr ⟨hnm, _, hpos, rfl⟩)
  · have hmn : m = n := htells.zero_iff.1 (not_not.1 hret)
    rw [List.drop_left, List.drop_left]
    exact .inr (.inl ⟨hmn, rfl⟩)

omit hr' in
theorem strspn_eq_zero : strspn r digits = 0 := by
  have hspan : strspn ([] ++ r) digits = 0 := strspn_append nofun hr
  rwa [List.nil_append] at hspan

omit hr' in
theorem skipZeros_of_head : skipZeros r r' = (r, r') := by
  unfold skipZeros
  split
  · exact absurd (by decide : '0' ∈ digits) (hr '0' rfl)
  · rfl

/-- The zeros of two components that are 0 are read, and no digit is left to compare. -/
theorem compareZeros_of_head : compareZeros ('0' :: r) ('0' :: r') = .ok (r, r') := by
  have hspan := strspn_eq_zero hr
  have hspan' := strspn_eq_zero hr'
  have hskip : skipZeros ('0' :: r) ('0' :: r') = (r, r') := by
    rw [skipZeros, skipZeros_of_head hr]
  unfold compareZeros
  simp [hskip, hspan, hspan']

theorem compareDigits_of_head : compareDigits r r' = .ok (r, r') := by
  have hspan := strspn_eq_zero hr
  have hspan' := strspn_eq_zero hr'
  simp [compareDigits, hspan, hspan', strncmp_zero]

theorem compareNumbers_judges (m n : ℕ) :
    Judges (compareNumbers (toDigits 10 m ++ r) (toDigits 10 n ++ r')) m n (r, r') := by
  have hhead : ∀ (k : ℕ) (t : List Char), (toDigits 10 k ++ t).head? = (toDigits 10 k).head? :=
    fun k t => List.head?_append_of_ne_nil _ toDigits_ne_nil
  have hdigits := compareDigits_judges hr hr' m n
  rcases Nat.eq_zero_or_pos m with rfl | hm <;> rcases Nat.eq_zero_or_pos n with rfl | hn
  · refine .inr (.inl ⟨rfl, ?_⟩)
    simp [compareNumbers, toDigits_zero, compareZeros_of_head hr hr',
      compareDigits_of_head hr hr']
  · refine .inl ⟨hn, -1, by decide, ?_⟩
    simp [compareNumbers, hhead, head?_toDigits hn]
  · refine .inr (.inr ⟨hm, 1, by decide, ?_⟩)
    simp [compareNumbers, hhead, head?_toDigits hm]
  · simpa [compareNumbers, hhead, head?_toDigits hm, head?_toDigits hn] using hdigits

/-- A round with `sep` in front of both numbers. -/
theorem myStrverscmp_number {sep : List Char} (hsep : ∀ c ∈ sep, c ∉ digits) (m n : ℕ) :
    (m < n ∧ myStrverscmp (sep ++ (toDigits 10 m ++ r)) (sep ++ (toDigits 10 n ++ r')) < 0)
      ∨ (m = n ∧ myStrverscmp (sep ++ (toDigits 10 m ++ r)) (sep ++ (toDigits 10 n ++ r'))
          = myStrverscmp r r')
      ∨ (n < m
        ∧ 0 < myStrverscmp (sep ++ (toDigits 10 m ++ r)) (sep ++ (toDigits 10 n ++ r'))) := by
  have hspan : ∀ (k : ℕ) (t : List Char),
      strcspn (sep ++ (toDigits 10 k ++ t)) digits = sep.length := by
    intro k t
    apply strcspn_append hsep
    rw [List.head?_append_of_ne_nil _ toDigits_ne_nil]
    exact fun c hc => mem_digits (isDigit_of_mem c (List.mem_of_mem_head? hc))
  have hround : strverscmpRound sep.length (sep ++ (toDigits 10 m ++ r))
      (sep ++ (toDigits 10 n ++ r'))
        = compareNumbers (toDigits 10 m ++ r) (toDigits 10 n ++ r') := by
    rw [strverscmpRound, strncmp_append _ _ _ _ rfl, strcmp_self, List.drop_left, List.drop_left]
    rfl
  have hjudges := compareNumbers_judges hr hr' m n
  rw [← hround] at hjudges
  rw [myStrverscmp_eq]
  simp only [hspan, List.drop_left]
  rw [if_pos (by simp)]
  rcases hjudges with ⟨hmn, ret, hret, heq⟩ | ⟨hmn, heq⟩ | ⟨hmn, ret, hret, heq⟩
  · exact .inl ⟨hmn, by rwa [heq]⟩
  · exact .inr (.inl ⟨hmn, by rw [heq]⟩)
  · exact .inr (.inr ⟨hmn, by rwa [heq]⟩)

end

theorem myStrverscmp_nil_left (s : List Char) : myStrverscmp [] s = strcmp [] s := by
  rw [myStrverscmp_eq, if_neg]
  rintro ⟨-, hend, -⟩
  exact hend rfl

theorem myStrverscmp_nil_right (s : List Char) : myStrverscmp s [] = strcmp s [] := by
  rw [myStrverscmp_eq, if_neg]
  rintro ⟨-, -, hend⟩
  exact hend rfl

/-- A proper beginning is smaller: it ends where the other goes on. -/
theorem tells_nil_left {s : List Char} {v w : List ℕ} (h : ∃ c ∈ s.head?, 0 < c.toNat)
    (hlt : v < w) : Tells (myStrverscmp [] s) v w :=
  .inl ⟨hlt, by rw [myStrverscmp_nil_left]; exact strcmp_nil_neg h⟩

theorem tells_nil_right {s : List Char} {v w : List ℕ} (h : ∃ c ∈ s.head?, 0 < c.toNat)
    (hlt : w < v) : Tells (myStrverscmp s []) v w :=
  .inr (.inr ⟨hlt, by rw [myStrverscmp_nil_right]; exact strcmp_nil_pos h⟩)

theorem tells_cons {sep : List Char} (hsep : ∀ c ∈ sep, c ∉ digits) (m n : ℕ) {v w : List ℕ}
    (h : Tells (myStrverscmp (afterFirst v) (afterFirst w)) v w) :
    Tells (myStrverscmp (sep ++ (toDigits 10 m ++ afterFirst v))
      (sep ++ (toDigits 10 n ++ afterFirst w))) (m :: v) (n :: w) := by
  rcases myStrverscmp_number (head?_afterFirst v) (head?_afterFirst w) hsep m n with
    ⟨hmn, hneg⟩ | ⟨rfl, heq⟩ | ⟨hnm, hpos⟩
  · exact .inl ⟨List.cons_lt_cons_iff.2 (.inl hmn), hneg⟩
  · rw [heq]
    rcases h with ⟨hvw, hneg⟩ | ⟨rfl, hzero⟩ | ⟨hwv, hpos⟩
    · exact .inl ⟨List.cons_lt_cons_iff.2 (.inr ⟨rfl, hvw⟩), hneg⟩
    · exact .inr (.inl ⟨rfl, hzero⟩)
    · exact .inr (.inr ⟨List.cons_lt_cons_iff.2 (.inr ⟨rfl, hwv⟩), hpos⟩)
  · exact .inr (.inr ⟨List.cons_lt_cons_iff.2 (.inl hnm), hpos⟩)

/-- By induction on the numbers behind the first. -/
theorem tells_afterFirst : ∀ v w : List ℕ,
    Tells (myStrverscmp (afterFirst v) (afterFirst w)) v w
  | [], [] => .inr (.inl ⟨rfl, myStrverscmp_nil_left []⟩)
  | [], n :: w => tells_nil_left ⟨'.', rfl, by decide⟩ (List.nil_lt_cons n w)
  | m :: v, [] => tells_nil_right ⟨'.', rfl, by decide⟩ (List.nil_lt_cons m v)
  | m :: v, n :: w =>
    have hsep : ∀ c ∈ ['.'], c ∉ digits := by
      rw [List.forall_mem_singleton]
      decide
    tells_cons hsep m n (tells_afterFirst v w)

theorem head?_dotted (n : ℕ) (v : List ℕ) : ∃ c ∈ (dotted (n :: v)).head?, 0 < c.toNat := by
  obtain ⟨c, t, hdigits⟩ := List.exists_cons_of_ne_nil (toDigits_ne_nil (n := n) (b := 10))
  have hc : c ∈ toDigits 10 n := by
    rw [hdigits]
    exact List.mem_cons_self
  refine ⟨c, by rw [dotted_cons, hdigits]; rfl, ?_⟩
  have hdigit := isDigit_iff.1 (isDigit_of_mem c hc)
  omega

theorem tells_dotted : ∀ v w : List ℕ, Tells (myStrverscmp (dotted v) (dotted w)) v w
  | [], [] => .inr (.inl ⟨rfl, myStrverscmp_nil_left []⟩)
  | [], n :: w => tells_nil_left (head?_dotted n w) (List.nil_lt_cons n w)
  | m :: v, [] => tells_nil_right (head?_dotted m v) (List.nil_lt_cons m v)
  | m :: v, n :: w => by
    rw [dotted_cons, dotted_cons]
    have hsep : ∀ c ∈ [], c ∉ digits := nofun
    exact tells_cons hsep m n (tells_afterFirst v w)

/-- The comparison is the lexicographic order of the numbers, and `ykpers_check_version` gives the
library's version to whoever asks for no later one. -/
theorem myStrverscmp_dotted (v w : List ℕ) :
    (myStrverscmp (dotted v) (dotted w) < 0 ↔ v < w)
      ∧ (myStrverscmp (dotted v) (dotted w) = 0 ↔ v = w)
      ∧ (0 < myStrverscmp (dotted v) (dotted w) ↔ w < v)
      ∧ (ykpersCheckVersion (dotted w) (some (dotted v)) = some (dotted w) ↔ v ≤ w) := by
  have htells := tells_dotted v w
  refine ⟨htells.neg_iff, htells.zero_iff, htells.pos_iff, ?_⟩
  rw [← htells.nonpos_iff]
  by_cases h : myStrverscmp (dotted v) (dotted w) ≤ 0 <;> simp [ykpersCheckVersion, h]

end YkPers
