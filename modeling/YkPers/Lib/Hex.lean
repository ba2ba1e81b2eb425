import Mathlib.Data.List.Induction
import Mathlib.Data.List.Nodup

/-!
# Sixteen digits

An `Alphabet` writes a byte as two of its characters, the high half first, and no two lists of
bytes alike. `Nat.toDigits 16` does so with numbers. A text denotes the same number in one alphabet
as its translation does in another (`Denotes.translate`).
-/

namespace Hex

/-- The two halves of each byte, the high half first. -/
def nibbles (bs : List UInt8) : List ℕ := bs.flatMap fun b => [b.toNat / 16, b.toNat % 16]

structure Alphabet where
  chars : List Char
  length_chars : chars.length = 16
  nodup : chars.Nodup

namespace Alphabet

def hex : Alphabet := ⟨"0123456789abcdef".toList, by decide, by decide⟩

def modhex : Alphabet := ⟨"cbdefghijklnrtuv".toList, by decide, by decide⟩

variable (a : Alphabet)

/-- The digit of a number's last place. -/
def digit (n : ℕ) : Char :=
  a.chars.get ⟨n % 16, by rw [a.length_chars]; exact Nat.mod_lt n (by decide)⟩

def encode (bs : List UInt8) : List Char :=
  bs.flatMap fun b => [a.digit (b.toNat / 16), a.digit b.toNat]

theorem encode_eq_map (bs : List UInt8) : a.encode bs = (nibbles bs).map a.digit := by
  have hlow : ∀ n, a.digit (n % 16) = a.digit n := fun n => by simp [digit]
  simp [encode, nibbles, List.map_flatMap, hlow]

theorem encode_append (bs cs : List UInt8) : a.encode (bs ++ cs) = a.encode bs ++ a.encode cs :=
  List.flatMap_append

theorem length_encode : ∀ bs : List UInt8, (a.encode bs).length = 2 * bs.length
  | [] => rfl
  | b :: bs => by
    have ih := length_encode bs
    rw [encode] at ih ⊢
    rw [List.flatMap_cons, List.length_append, ih]
    simp only [List.length_cons, List.length_nil]
    omega

theorem take_encode (n : ℕ) (bs : List UInt8) :
    (a.encode bs).take (2 * n) = a.encode (bs.take n) := by
  have hsplit := a.encode_append (bs.take n) (bs.drop n)
  rw [List.take_append_drop] at hsplit
  have hlen : (a.encode (bs.take n)).length ≤ 2 * n := by
    rw [length_encode, List.length_take]
    omega
  rw [hsplit, List.take_append, List.take_of_length_le hlen]
  rcases Nat.le_total bs.length n with h | h
  · simp [List.drop_eq_nil_of_le h, encode]
  · rw [length_encode, List.length_take, Nat.min_eq_left h]
    simp

variable {a}

theorem mem_encode {c : Char} {bs : List UInt8} (h : c ∈ a.encode bs) : c ∈ a.chars := by
  obtain ⟨b, -, hc⟩ := List.mem_flatMap.1 h
  rcases List.mem_pair.1 hc with rfl | rfl <;> exact List.get_mem _ _

theorem digit_inj {m n : ℕ} : a.digit m = a.digit n ↔ m % 16 = n % 16 := by
  rw [digit, digit, a.nodup.get_inj_iff, Fin.mk.injEq]

theorem encode_inj : ∀ {bs cs : List UInt8}, a.encode bs = a.encode cs → bs = cs
  | [], [], _ => rfl
  | [], _ :: _, h => by simp [encode] at h
  | _ :: _, [], h => by simp [encode] at h
  | b :: bs, c :: cs, h => by
    simp only [encode, List.flatMap_cons, List.cons_append, List.nil_append, List.cons.injEq,
      digit_inj] at h
    obtain ⟨hhigh, hlow, htail⟩ := h
    have hb := b.toNat_lt
    have hc := c.toNat_lt
    rw [encode_inj htail, UInt8.toNat_inj.1 (show b.toNat = c.toNat by omega)]

theorem idxOf_digit (a : Alphabet) (n : ℕ) : a.chars.idxOf (a.digit n) = n % 16 :=
  List.get_idxOf a.nodup _

theorem digit_mod (a : Alphabet) (n : ℕ) : a.digit (n % 16) = a.digit n :=
  digit_inj.2 (Nat.mod_mod n 16)

theorem exists_digit {c : Char} (h : c ∈ a.chars) : ∃ n < 16, a.digit n = c := by
  obtain ⟨n, hn, rfl⟩ := List.getElem_of_mem h
  rw [a.length_chars] at hn
  refine ⟨n, hn, ?_⟩
  simp only [digit, Nat.mod_eq_of_lt hn, List.get_eq_getElem]

/-- What is written are the texts of even length. -/
theorem exists_encode_iff : ∀ {s : List Char},
    (∃ bs, a.encode bs = s) ↔ s.length % 2 = 0 ∧ ∀ c ∈ s, c ∈ a.chars
  | [] => iff_of_true ⟨[], rfl⟩ ⟨rfl, fun _ h => absurd h List.not_mem_nil⟩
  | [c] => by
    refine iff_of_false ?_ fun h => absurd h.1 (by simp)
    rintro ⟨bs, h⟩
    have hlen := congrArg List.length h
    rw [length_encode, List.length_singleton] at hlen
    omega
  | hi :: lo :: s => by
    constructor
    · rintro ⟨bs, h⟩
      rw [← h, length_encode]
      exact ⟨by omega, fun _ => mem_encode⟩
    · rintro ⟨hlen, hmem⟩
      obtain ⟨m, hm, rfl⟩ := exists_digit (hmem hi (by simp))
      obtain ⟨n, hn, rfl⟩ := exists_digit (hmem lo (by simp))
      have heven : s.length % 2 = 0 := by
        simp only [List.length_cons] at hlen
        omega
      obtain ⟨bs, rfl⟩ := exists_encode_iff.2 ⟨heven, fun c hc => hmem c (by simp [hc])⟩
      have hbyte : (UInt8.ofNat (16 * m + n)).toNat = 16 * m + n :=
        UInt8.toNat_ofNat_of_lt' (by simp only [UInt8.size]; omega)
      refine ⟨UInt8.ofNat (16 * m + n) :: bs, ?_⟩
      simp only [encode, List.flatMap_cons, List.cons_append, List.nil_append, hbyte,
        List.cons.injEq, digit_inj, and_true]
      omega

/-! ## Numerals -/

/-- The number that digits denote. -/
def value (a : Alphabet) (cs : List Char) : ℕ :=
  cs.foldl (fun n c => 16 * n + a.chars.idxOf c) 0

structure Denotes (a : Alphabet) (text : List Char) (n : ℕ) : Prop where
  ne_nil : text ≠ []
  digits : ∀ c ∈ text, c ∈ a.chars
  value : a.value text = n

/-- The digit of `b` for the digit `c` of `a`. -/
def translate (a b : Alphabet) (c : Char) : Char := b.digit (a.chars.idxOf c)

variable {b : Alphabet}

theorem translate_digit (n : ℕ) : a.translate b (a.digit n) = b.digit n := by
  rw [translate, idxOf_digit, digit_mod]

theorem map_translate_encode (bs : List UInt8) :
    (a.encode bs).map (a.translate b) = b.encode bs := by
  rw [encode_eq_map, encode_eq_map, List.map_map]
  exact List.map_congr_left fun n _ => translate_digit n

theorem value_concat (cs : List Char) (c : Char) :
    a.value (cs ++ [c]) = 16 * a.value cs + a.chars.idxOf c := by
  rw [value, List.foldl_append]
  rfl

theorem value_translate {cs : List Char} (h : ∀ c ∈ cs, c ∈ a.chars) :
    b.value (cs.map (a.translate b)) = a.value cs := by
  induction cs using List.reverseRecOn with
  | nil => rfl
  | append_singleton cs c ih =>
    obtain ⟨n, -, rfl⟩ := exists_digit (h c (by simp))
    rw [List.map_append, List.map_singleton, value_concat, value_concat, translate_digit,
      ih fun d hd => h d (List.mem_append_left _ hd), idxOf_digit, idxOf_digit]

theorem Denotes.translate {text : List Char} {n : ℕ} (h : a.Denotes text n) :
    b.Denotes (text.map (a.translate b)) n where
  ne_nil hnil := h.ne_nil (List.map_eq_nil_iff.1 hnil)
  digits c hc := by
    obtain ⟨d, -, rfl⟩ := List.mem_map.1 hc
    exact List.get_mem _ _
  value := (value_translate h.digits).trans h.value

/-- A zero in front changes nothing. -/
theorem Denotes.zero_cons {text : List Char} {n : ℕ} (h : a.Denotes text n) :
    a.Denotes (a.digit 0 :: text) n where
  ne_nil := List.cons_ne_nil _ _
  digits c hc := by
    rcases List.mem_cons.1 hc with rfl | hc
    · exact List.get_mem _ _
    · exact h.digits c hc
  value := by
    have hzero : a.chars.idxOf (a.digit 0) = 0 := a.idxOf_digit 0
    rw [Alphabet.value, List.foldl_cons, hzero]
    exact h.value

end Alphabet

/-! ## Numbers -/

theorem digitChar_eq_digit {n : ℕ} (h : n < 16) : n.digitChar = Alphabet.hex.digit n := by
  have hall : ∀ n < 16, n.digitChar = Alphabet.hex.digit n := by decide
  exact hall n h

theorem mem_toDigits {c : Char} (n : ℕ) (h : c ∈ Nat.toDigits 16 n) : c ∈ Alphabet.hex.chars := by
  induction n using Nat.strongRecOn with
  | ind n ih =>
    rcases Nat.lt_or_ge n 16 with hn | hn
    · rw [Nat.toDigits_of_lt_base hn, List.mem_singleton, digitChar_eq_digit hn] at h
      exact h ▸ List.get_mem _ _
    · rw [Nat.toDigits_of_base_le (by decide) hn, List.mem_append, List.mem_singleton,
        digitChar_eq_digit (Nat.mod_lt n (by decide))] at h
      rcases h with h | rfl
      · exact ih (n / 16) (Nat.div_lt_self (by omega) (by decide)) h
      · exact List.get_mem _ _

theorem value_toDigits (n : ℕ) : Alphabet.hex.value (Nat.toDigits 16 n) = n := by
  induction n using Nat.strongRecOn with
  | ind n ih =>
    rcases Nat.lt_or_ge n 16 with hn | hn
    · have hidx := Alphabet.hex.idxOf_digit n
      rw [Nat.mod_eq_of_lt hn] at hidx
      rw [Nat.toDigits_of_lt_base hn, digitChar_eq_digit hn]
      exact (Alphabet.value_concat [] _).trans (by rw [hidx]; exact Nat.zero_add n)
    · rw [Nat.toDigits_of_base_le (by decide) hn, digitChar_eq_digit (Nat.mod_lt n (by decide)),
        Alphabet.value_concat, ih (n / 16) (Nat.div_lt_self (by omega) (by decide)),
        Alphabet.idxOf_digit]
      omega

theorem denotes_toDigits (n : ℕ) : Alphabet.hex.Denotes (Nat.toDigits 16 n) n :=
  ⟨Nat.toDigits_ne_nil, fun _ => mem_toDigits n, value_toDigits n⟩

theorem toDigits_inj (m n : ℕ) (h : Nat.toDigits 16 m = Nat.toDigits 16 n) : m = n := by
  rw [← value_toDigits m, h, value_toDigits]

end Hex
