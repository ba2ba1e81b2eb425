import Mathlib.Algebra.Group.Int.Defs
import Mathlib.Order.Lattice
import YkPers.Lib.Decimal

/-!
# Comparing strings

`strcmp` is negative, zero or positive as its first argument is smaller, equal or larger. On
decimal numerals of one length that is the order of the numbers.
-/

namespace CString

/-- The difference of the first two characters that differ, where the end counts as a NUL. -/
def strcmp : List Char → List Char → ℤ
  | [], [] => 0
  | [], d :: _ => -(d.toNat : ℤ)
  | c :: _, [] => (c.toNat : ℤ)
  | c :: cs, d :: ds => if c = d then strcmp cs ds else (c.toNat : ℤ) - (d.toNat : ℤ)

def strncmp (s t : List Char) (n : ℕ) : ℤ := strcmp (s.take n) (t.take n)

def strspn (s accept : List Char) : ℕ := (s.takeWhile (· ∈ accept)).length

def strcspn (s reject : List Char) : ℕ := (s.takeWhile (· ∉ reject)).length

theorem strcmp_self : ∀ s : List Char, strcmp s s = 0
  | [] => rfl
  | c :: cs => by rw [strcmp, if_pos rfl, strcmp_self cs]

theorem strcmp_nil_neg {s : List Char} (h : ∃ c ∈ s.head?, 0 < c.toNat) : strcmp [] s < 0 := by
  obtain ⟨c, hc, hpos⟩ := h
  obtain ⟨t, rfl⟩ := List.head?_eq_some_iff.1 hc
  rw [strcmp]
  omega

theorem strcmp_nil_pos {s : List Char} (h : ∃ c ∈ s.head?, 0 < c.toNat) : 0 < strcmp s [] := by
  obtain ⟨c, hc, hpos⟩ := h
  obtain ⟨t, rfl⟩ := List.head?_eq_some_iff.1 hc
  rw [strcmp]
  omega

theorem strncmp_zero (s t : List Char) : strncmp s t 0 = 0 := rfl

theorem strncmp_append (s t r r' : List Char) (h : s.length = t.length) :
    strncmp (s ++ r) (t ++ r') s.length = strcmp s t := by
  rw [strncmp, List.take_left, h, List.take_left]

variable {p accept : List Char}

theorem strspn_append {s r : List Char} (hs : ∀ c ∈ s, c ∈ accept)
    (hr : ∀ c ∈ r.head?, c ∉ accept) : strspn (s ++ r) accept = s.length := by
  rw [strspn, List.takeWhile_append_of_pos fun c hc => decide_eq_true (hs c hc)]
  cases r with
  | nil => simp
  | cons c r => simp [hr c (by simp)]

theorem strcspn_append {s r : List Char} (hs : ∀ c ∈ s, c ∉ accept)
    (hr : ∀ c ∈ r.head?, c ∈ accept) : strcspn (s ++ r) accept = s.length := by
  rw [strcspn, List.takeWhile_append_of_pos fun c hc => decide_eq_true (hs c hc)]
  cases r with
  | nil => simp
  | cons c r => simp [hr c (by simp)]

theorem drop_strcspn (s reject : List Char) :
    s.drop (strcspn s reject) = s.dropWhile (· ∉ reject) := by
  have hsplit : s.takeWhile (· ∉ reject) ++ s.dropWhile (· ∉ reject) = s :=
    List.takeWhile_append_dropWhile
  calc s.drop (strcspn s reject)
      = (s.takeWhile (· ∉ reject) ++ s.dropWhile (· ∉ reject)).drop (strcspn s reject) := by
        rw [hsplit]
    _ = s.dropWhile (· ∉ reject) := List.drop_left

/-! ## What a comparison tells -/

/-- `r` is negative, zero or positive as `a` is below, equal to or above `b`. -/
def Tells {α : Type} [LT α] (r : ℤ) (a b : α) : Prop :=
  (a < b ∧ r < 0) ∨ (a = b ∧ r = 0) ∨ (b < a ∧ 0 < r)

namespace Tells

variable {α : Type} [LinearOrder α] {r : ℤ} {a b : α}

theorem neg_iff (h : Tells r a b) : r < 0 ↔ a < b := by
  rcases h with ⟨hab, hr⟩ | ⟨rfl, rfl⟩ | ⟨hba, hr⟩
  · exact iff_of_true hr hab
  · simp
  · exact iff_of_false (by omega) hba.asymm

theorem zero_iff (h : Tells r a b) : r = 0 ↔ a = b := by
  rcases h with ⟨hab, hr⟩ | ⟨rfl, rfl⟩ | ⟨hba, hr⟩
  · exact iff_of_false (by omega) hab.ne
  · simp
  · exact iff_of_false (by omega) hba.ne'

theorem pos_iff (h : Tells r a b) : 0 < r ↔ b < a := by
  rcases h with ⟨hab, hr⟩ | ⟨rfl, rfl⟩ | ⟨hba, hr⟩
  · exact iff_of_false (by omega) hab.asymm
  · simp
  · exact iff_of_true hr hba

theorem nonpos_iff (h : Tells r a b) : r ≤ 0 ↔ a ≤ b := by
  rw [← Int.not_lt, ← not_lt, h.pos_iff]

end Tells

end CString

namespace Decimal

open CString Nat

theorem strcmp_tells : ∀ {cs ds : List Char}, (∀ c ∈ cs, c.isDigit) → (∀ d ∈ ds, d.isDigit) →
    cs.length = ds.length → Tells (strcmp cs ds) (value cs) (value ds)
  | [], [], _, _, _ => .inr (.inl ⟨rfl, rfl⟩)
  | c :: cs, d :: ds, hcs, hds, hlen => by
    have hc := isDigit_iff.1 (hcs c List.mem_cons_self)
    have hd := isDigit_iff.1 (hds d List.mem_cons_self)
    have hcs' : ∀ x ∈ cs, x.isDigit := fun x hx => hcs x (List.mem_cons_of_mem c hx)
    have hds' : ∀ x ∈ ds, x.isDigit := fun x hx => hds x (List.mem_cons_of_mem d hx)
    have hlen' : cs.length = ds.length := Nat.succ.inj hlen
    rw [strcmp]
    by_cases hcd : c = d
    · subst hcd
      rw [if_pos rfl, value_cons, value_cons, hlen']
      rcases strcmp_tells hcs' hds' hlen' with ⟨hv, hr⟩ | ⟨hv, hr⟩ | ⟨hv, hr⟩
      · exact .inl ⟨Nat.add_lt_add_left hv _, hr⟩
      · exact .inr (.inl ⟨by rw [hv], hr⟩)
      · exact .inr (.inr ⟨Nat.add_lt_add_left hv _, hr⟩)
    · rw [if_neg hcd]
      have hne : c.toNat ≠ d.toNat := fun h => hcd (Char.toNat_inj.1 h)
      rcases Nat.lt_or_gt_of_ne hne with hlt | hgt
      · exact .inl ⟨value_cons_lt hcs' hlen' (by omega), by omega⟩
      · exact .inr (.inr ⟨value_cons_lt hds' hlen'.symm (by omega), by omega⟩)

theorem strcmp_toDigits_tells {m n : ℕ} (h : (toDigits 10 m).length = (toDigits 10 n).length) :
    Tells (strcmp (toDigits 10 m) (toDigits 10 n)) m n := by
  have htells := strcmp_tells isDigit_of_mem isDigit_of_mem h
  rwa [value, value, ofDigitChars_ten_toDigits, ofDigitChars_ten_toDigits] at htells

end Decimal
