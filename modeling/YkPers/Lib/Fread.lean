import Mathlib.Data.List.Basic

/-!
# Filling a buffer by short reads

A source says what each call of a read finds there; a call takes no more than it is asked for. A
loop that reads until its buffer is full ends exactly when the source delivers enough bytes in
finitely many calls (`fill_ends_iff`), and then holds the first of them: it looks at nothing else,
so that a source at its end keeps it going.
-/

namespace Fread

variable {α : Type*} (source : ℕ → List α) (n : ℕ)

/-- What the first `k` calls find. -/
def delivered (k : ℕ) : List α := (List.range k).flatMap source

def Supplies : Prop := ∃ k, n ≤ (delivered source k).length

/-- From call `i` on, with `buf` read so far; `none` is out of fuel. -/
def fill : (fuel i : ℕ) → List α → Option (List α)
  | 0, _, _ => none
  | fuel + 1, i, buf =>
    if buf.length < n then fill fuel (i + 1) (buf ++ (source i).take (n - buf.length)) else some buf

variable {source n}

theorem delivered_succ (k : ℕ) : delivered source (k + 1) = delivered source k ++ source k := by
  rw [delivered, List.range_succ, List.flatMap_append, List.flatMap_cons, List.flatMap_nil,
    List.append_nil]
  rfl

theorem take_delivered_succ (i : ℕ) : (delivered source i).take n
    ++ (source i).take (n - ((delivered source i).take n).length)
      = (delivered source (i + 1)).take n := by
  rw [delivered_succ, List.take_append, List.length_take]
  congr 2
  omega

theorem fill_sound : ∀ {fuel i : ℕ} {buf : List α},
    fill source n fuel i ((delivered source i).take n) = some buf →
      ∃ k, n ≤ (delivered source k).length ∧ buf = (delivered source k).take n
  | 0, _, _, h => by cases h
  | fuel + 1, i, buf, h => by
    rw [fill, take_delivered_succ] at h
    split_ifs at h with hlt
    · exact fill_sound h
    · rw [List.length_take] at hlt
      exact ⟨i, by omega, (Option.some.inj h).symm⟩

theorem fill_complete : ∀ {d fuel i : ℕ}, n ≤ (delivered source (i + d)).length → d < fuel →
    ∃ buf, fill source n fuel i ((delivered source i).take n) = some buf
  | _, 0, _, _, hd => absurd hd (Nat.not_lt_zero _)
  | 0, fuel + 1, i, h, _ => by
    rw [Nat.add_zero] at h
    refine ⟨_, if_neg ?_⟩
    rw [List.length_take]
    omega
  | d + 1, fuel + 1, i, h, hd => by
    rw [fill, take_delivered_succ]
    split_ifs
    · exact fill_complete (by rwa [Nat.add_right_comm, Nat.add_assoc]) (by omega)
    · exact ⟨_, rfl⟩

/-- The loop ends exactly when there is enough to read. -/
theorem fill_ends_iff : (∃ fuel buf, fill source n fuel 0 [] = some buf) ↔ Supplies source n := by
  have h0 : (delivered source 0).take n = [] := by simp [delivered]
  rw [← h0]
  constructor
  · rintro ⟨fuel, buf, h⟩
    obtain ⟨k, hk, -⟩ := fill_sound h
    exact ⟨k, hk⟩
  · rintro ⟨k, hk⟩
    obtain ⟨buf, h⟩ := fill_complete (i := 0) (by simpa using hk) (Nat.lt_succ_self k)
    exact ⟨k + 1, buf, h⟩

/-- The buffer is filled with the first bytes that the source delivers. -/
theorem fill_result {fuel : ℕ} {buf : List α} (h : fill source n fuel 0 [] = some buf) :
    buf.length = n ∧ ∃ k, buf = (delivered source k).take n := by
  have h0 : (delivered source 0).take n = [] := by simp [delivered]
  rw [← h0] at h
  obtain ⟨k, hk, rfl⟩ := fill_sound h
  exact ⟨by rw [List.length_take]; omega, k, rfl⟩

end Fread
