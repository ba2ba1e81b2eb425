import YkPers.Lib.Strcmp

/-!
# Versions, `ykpers-version.c`

A character string is read up to its end, where the source finds the NUL. A round of
`my_strverscmp`'s loop ends the comparison with a value or moves both cursors on.
-/

namespace YkPers

open CString

def digits : List Char := "0123456789".toList

def skipZeros : List Char → List Char → List Char × List Char
  | '0' :: s1, '0' :: s2 => skipZeros s1 s2
  | s1, s2 => (s1, s2)

/-- The branch for two numbers that both start with a zero. `ret` is 0 there. -/
def compareZeros (s1 s2 : List Char) : Except ℤ (List Char × List Char) :=
  let s := skipZeros s1 s2
  let p1 := strspn s.1 digits
  let p2 := strspn s.2 digits
  if p1 = 0 ∧ p2 > 0 then .error 1
  else if p2 = 0 ∧ p1 > 0 then .error (-1)
  else if s.1.head? ≠ s.2.head? ∧ s.1.head? ≠ some '0' ∧ s.2.head? ≠ some '0' then
    if p1 < p2 then .error 1
    else if p1 > p2 then .error (-1)
    else .ok s
  else
    let ret := if p1 < p2 then strncmp s.1 s.2 p1 else if p1 > p2 then strncmp s.1 s.2 p2 else 0
    if ret ≠ 0 then .error ret else .ok s

def compareDigits (s1 s2 : List Char) : Except ℤ (List Char × List Char) :=
  let p1 := strspn s1 digits
  let p2 := strspn s2 digits
  if p1 < p2 then .error (-1)
  else if p1 > p2 then .error 1
  else
    let ret := strncmp s1 s2 p1
    if ret ≠ 0 then .error ret else .ok (s1.drop p1, s2.drop p2)

def compareNumbers (s1 s2 : List Char) : Except ℤ (List Char × List Char) :=
  let lz1 := if s1.head? = some '0' then 1 else 0
  let lz2 := if s2.head? = some '0' then 1 else 0
  if lz1 > lz2 then .error (-1)
  else if lz1 < lz2 then .error 1
  else if lz1 = 1 then
    match compareZeros s1 s2 with
    | .error ret => .error ret
    | .ok s => compareDigits s.1 s.2
  else compareDigits s1 s2

/-- The body of the loop, where `p` characters stand in front of each number. -/
def strverscmpRound (p : ℕ) (s1 s2 : List Char) : Except ℤ (List Char × List Char) :=
  let ret := strncmp s1 s2 p
  if ret ≠ 0 then .error ret else compareNumbers (s1.drop p) (s2.drop p)

/-! ## The loop ends -/

theorem length_skipZeros_le : ∀ s1 s2 : List Char, (skipZeros s1 s2).1.length ≤ s1.length := by
  intro s1 s2
  fun_induction skipZeros s1 s2 with
  | case1 s1 s2 ih => exact Nat.le_succ_of_le ih
  | case2 => exact Nat.le_refl _

theorem length_skipZeros_lt {s1 s2 : List Char} (h1 : s1.head? = some '0')
    (h2 : s2.head? = some '0') : (skipZeros s1 s2).1.length < s1.length := by
  obtain ⟨t1, rfl⟩ := List.head?_eq_some_iff.1 h1
  obtain ⟨t2, rfl⟩ := List.head?_eq_some_iff.1 h2
  rw [skipZeros]
  exact Nat.lt_succ_of_le (length_skipZeros_le t1 t2)

theorem compareZeros_ok {s1 s2 : List Char} {s} (h : compareZeros s1 s2 = .ok s) :
    s = skipZeros s1 s2 := by
  unfold compareZeros at h
  simp only [] at h
  split_ifs at h
  all_goals exact (Except.ok.inj h).symm

theorem compareDigits_ok {s1 s2 : List Char} {s} (h : compareDigits s1 s2 = .ok s) :
    s.1.length = s1.length - strspn s1 digits := by
  unfold compareDigits at h
  simp only [] at h
  split_ifs at h
  rw [← Except.ok.inj h, List.length_drop]

theorem strspn_pos {s : List Char} (h : ∃ c ∈ s.head?, c ∈ digits) : 0 < strspn s digits := by
  obtain ⟨c, hc, hdigit⟩ := h
  obtain ⟨t, rfl⟩ := List.head?_eq_some_iff.1 hc
  simp [strspn, hdigit]

/-- A round reads at least one digit. -/
theorem compareNumbers_ok {s1 s2 : List Char} {s} (h : compareNumbers s1 s2 = .ok s)
    (hdigit : ∃ c ∈ s1.head?, c ∈ digits) : s.1.length < s1.length := by
  have hpos : 0 < s1.length := by
    obtain ⟨c, hc, -⟩ := hdigit
    obtain ⟨t, rfl⟩ := List.head?_eq_some_iff.1 hc
    exact Nat.succ_pos _
  have hspan := strspn_pos hdigit
  by_cases h1 : s1.head? = some '0' <;> by_cases h2 : s2.head? = some '0' <;>
    simp only [compareNumbers, h1, h2, if_true, if_false] at h
  · have hlt := length_skipZeros_lt h1 h2
    cases hz : compareZeros s1 s2 with
    | error ret => simp [hz] at h
    | ok t =>
      simp only [hz, Nat.lt_irrefl, gt_iff_lt, if_false] at h
      rw [compareDigits_ok h, compareZeros_ok hz]
      omega
  · simp at h
  · simp at h
  · simp only [gt_iff_lt, Nat.lt_irrefl, if_false, Nat.zero_ne_one] at h
    rw [compareDigits_ok h]
    omega

theorem digit_behind_strcspn {s : List Char} (h : s.drop (strcspn s digits) ≠ []) :
    ∃ c ∈ (s.drop (strcspn s digits)).head?, c ∈ digits := by
  rw [drop_strcspn] at h ⊢
  have hhead := List.head_dropWhile_not (· ∉ digits) h
  exact ⟨_, List.head?_eq_some_head h, by simpa using hhead⟩

theorem length_strverscmpRound_lt {s1 s2 : List Char} {s}
    (hend : s1.drop (strcspn s1 digits) ≠ [])
    (h : strverscmpRound (strcspn s1 digits) s1 s2 = .ok s) : s.1.length < s1.length := by
  unfold strverscmpRound at h
  simp only [] at h
  split_ifs at h
  have hlt := compareNumbers_ok h (digit_behind_strcspn hend)
  rw [List.length_drop] at hlt
  omega

/-! ## The loop -/

def myStrverscmp (s1 s2 : List Char) : ℤ :=
  let p1 := strcspn s1 digits
  let p2 := strcspn s2 digits
  if _ : p1 = p2 ∧ s1.drop p1 ≠ [] ∧ s2.drop p2 ≠ [] then
    match _ : strverscmpRound p1 s1 s2 with
    | .error ret => ret
    | .ok s => myStrverscmp s.1 s.2
  else strcmp s1 s2
termination_by s1.length
decreasing_by exact length_strverscmpRound_lt (And.left (And.right ‹_ ∧ _ ∧ _›)) ‹_›

theorem myStrverscmp_eq (s1 s2 : List Char) :
    myStrverscmp s1 s2
      = if strcspn s1 digits = strcspn s2 digits ∧ s1.drop (strcspn s1 digits) ≠ []
          ∧ s2.drop (strcspn s2 digits) ≠ [] then
          match strverscmpRound (strcspn s1 digits) s1 s2 with
          | .error ret => ret
          | .ok s => myStrverscmp s.1 s.2
        else strcmp s1 s2 := by
  rw [myStrverscmp]
  split_ifs
  · split <;> rename_i h <;> rw [h]
  · rfl

/-- `version` is what the build puts for `YKPERS_VERSION_STRING`; no string is NULL. -/
def ykpersCheckVersion (version : List Char) (reqVersion : Option (List Char)) :
    Option (List Char) :=
  match reqVersion with
  | none => some version
  | some req => if myStrverscmp req version ≤ 0 then some version else none

end YkPers
