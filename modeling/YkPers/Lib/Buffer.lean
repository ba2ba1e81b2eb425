import Mathlib.Data.List.Basic

/-!
# Stores into a buffer, and sparse transfers

`store` overwrites a stretch of a buffer. A buffer of `k` parts of `m` entries is sent sparsely
by leaving out the blank parts other than the first and the last (`encode`). A receiver that
blanks its buffer on the first part and stores every part it is sent at its own place holds what
was sent (`decode_encode`), whatever it held before.
-/

namespace Buffer

variable {α : Type*}

def store (buf : List α) (off : ℕ) (xs : List α) : List α :=
  buf.take off ++ xs ++ buf.drop (off + xs.length)

theorem store_zero (buf xs : List α) : store buf 0 xs = xs ++ buf.drop xs.length := by
  rw [store, List.take_zero, List.nil_append, Nat.zero_add]

theorem length_store {buf xs : List α} {off : ℕ} (h : off + xs.length ≤ buf.length) :
    (store buf off xs).length = buf.length := by
  simp only [store, List.length_append, List.length_take, List.length_drop]
  omega

theorem store_append (l r xs : List α) :
    store (l ++ r) l.length xs = l ++ xs ++ r.drop xs.length := by
  simp [store, List.drop_append]

/-- Two stores, one behind the other. -/
theorem store_store (buf xs ys : List α) :
    store (store buf 0 xs) xs.length ys = store buf 0 (xs ++ ys) := by
  rw [store_zero, store_zero, store_append, List.drop_drop, List.length_append, List.append_assoc]

theorem store_replicate (l xs : List α) (n : ℕ) (blank : α) :
    store (l ++ List.replicate n blank) l.length xs
      = l ++ xs ++ List.replicate (n - xs.length) blank := by
  rw [store_append, List.drop_replicate]

/-! ## Sparse transfers -/

/-- The `s`-th part of `m` entries. -/
def part (m : ℕ) (l : List α) (s : ℕ) : List α := (l.drop (m * s)).take m

theorem length_part {m k s : ℕ} {l : List α} (hl : l.length = m * k) (hs : s < k) :
    (part m l s).length = m := by
  have h : m * s + m ≤ m * k := by
    rw [← Nat.mul_succ]
    exact Nat.mul_le_mul_left m hs
  simp only [part, List.length_take, List.length_drop]
  omega

theorem take_append_part (m : ℕ) (l : List α) (s : ℕ) :
    l.take (m * s) ++ part m l s = l.take (m * (s + 1)) := by
  rw [part, Nat.mul_succ, List.take_add]

theorem flatMap_part (m : ℕ) (l : List α) :
    ∀ k : ℕ, (List.range k).flatMap (part m l) = l.take (m * k)
  | 0 => by simp
  | k + 1 => by
    rw [List.range_succ, List.flatMap_append, flatMap_part m l k, List.flatMap_cons,
      List.flatMap_nil, List.append_nil, take_append_part]

variable [DecidableEq α] (blank : α) (m k : ℕ)

/-- A part that is sent: the first, the last, or one that is not blank. -/
def kept (l : List α) (s : ℕ) : Bool :=
  s = 0 || s + 1 = k || (part m l s).any (· ≠ blank)

def encode (l : List α) : List (ℕ × List α) :=
  ((List.range k).filter (kept blank m k l)).map fun s => (s, part m l s)

/-- The receiver blanks its buffer on the first part. -/
def receive (buf : List α) (p : ℕ × List α) : List α :=
  store (if p.1 = 0 then List.replicate (m * k) blank else buf) (m * p.1) p.2

def decode (buf : List α) (ps : List (ℕ × List α)) : List α := ps.foldl (receive blank m k) buf

variable {blank m k}

theorem part_eq_replicate {l : List α} {s : ℕ} (hl : l.length = m * k) (hs : s < k)
    (h : kept blank m k l s = false) : part m l s = List.replicate m blank := by
  simp only [kept, Bool.or_eq_false_iff, List.any_eq_false, decide_eq_true_eq, not_not] at h
  exact List.eq_replicate_iff.2 ⟨length_part hl hs, h.2⟩

omit [DecidableEq α] in
/-- With the parts before `s` in place and blanks after them, part `s` comes to its place. -/
theorem receive_part {l : List α} {s : ℕ} (hl : l.length = m * k) (hs : s < k) (hs0 : 0 < s) :
    receive blank m k (l.take (m * s) ++ List.replicate (m * k - m * s) blank) (s, part m l s)
      = l.take (m * (s + 1)) ++ List.replicate (m * k - m * (s + 1)) blank := by
  have hle : m * s + m ≤ m * k := by
    rw [← Nat.mul_succ]
    exact Nat.mul_le_mul_left m hs
  have htake : (l.take (m * s)).length = m * s := by
    rw [List.length_take]
    omega
  have hlen := length_part hl hs
  have hstore := store_replicate (l.take (m * s)) (part m l s) (m * k - m * s) blank
  rw [htake, hlen, take_append_part] at hstore
  simp only [receive, if_neg (show s ≠ 0 by omega)]
  rw [hstore, Nat.mul_succ, Nat.sub_sub]

theorem decode_range {l : List α} (hl : l.length = m * k) (buf : List α) :
    ∀ j, j < k →
      decode blank m k buf
          (((List.range (j + 1)).filter (kept blank m k l)).map fun s => (s, part m l s))
        = l.take (m * (j + 1)) ++ List.replicate (m * k - m * (j + 1)) blank
  | 0, hj => by
    have h0 : kept blank m k l 0 = true := by simp [kept]
    have hlen := length_part hl hj
    simp only [Nat.zero_add, List.range_one, List.filter_cons, h0, if_true, List.filter_nil,
      List.map_cons, List.map_nil, decode, List.foldl_cons, List.foldl_nil, receive, Nat.mul_zero]
    have hstore := store_replicate [] (part m l 0) (m * k) blank
    simp only [List.nil_append, List.length_nil, hlen] at hstore
    rw [hstore, Nat.mul_one]
    simp [part]
  | j + 1, hj => by
    have ih := decode_range hl buf j (by omega)
    have hle : m * (j + 1) + m ≤ m * k := by
      rw [← Nat.mul_succ]
      exact Nat.mul_le_mul_left m hj
    rw [List.range_succ, List.filter_append, List.map_append]
    unfold decode at ih ⊢
    rw [List.foldl_append, ih]
    rcases hkept : kept blank m k l (j + 1) with _ | _
    · -- a blank part is already in place
      have hpart := part_eq_replicate hl hj hkept
      have htake := take_append_part m l (j + 1)
      rw [hpart] at htake
      have hsplit : m * k - m * (j + 1) = m + (m * k - m * (j + 1 + 1)) := by
        rw [Nat.mul_succ m (j + 1)]
        omega
      simp only [List.filter_cons, hkept, Bool.false_eq_true, if_false, List.filter_nil,
        List.map_nil, List.foldl_nil]
      rw [← htake, hsplit, List.replicate_add, List.append_assoc]
    · simp only [List.filter_cons, hkept, if_true, List.filter_nil, List.map_cons, List.map_nil,
        List.foldl_cons, List.foldl_nil]
      exact receive_part hl hj (Nat.succ_pos j)

/-- A sparse transfer arrives whole. -/
theorem decode_encode {l : List α} (hl : l.length = m * k) (hk : 0 < k) (buf : List α) :
    decode blank m k buf (encode blank m k l) = l := by
  obtain ⟨j, rfl⟩ : ∃ j, k = j + 1 := ⟨k - 1, by omega⟩
  unfold encode
  rw [decode_range hl buf j (Nat.lt_succ_self j), ← hl, List.take_length, Nat.sub_self]
  simp

end Buffer
