import YkPers.Lib.Buffer

/-!
# Strings in memory

A string is what stands before the first NUL. Memory without a NUL has no string: reading one
runs past its end. `Holds` follows a string that grows in its memory. Lines that hold no newline
but their last character are told apart in the text they make up (`flatten_inj`).
-/

namespace CString

def nul : Char := '\x00'

def read (mem : List Char) : Option (List Char) :=
  if nul ∈ mem then some (mem.takeWhile (· ≠ nul)) else none

/-- `strncpy` into `len` characters, which it fills up with NULs. -/
def strncpy (len : ℕ) (src : List Char) : List Char := (src ++ List.replicate len nul).take len

/-- `snprintf` at `off`, where `size` characters are left. -/
def snprintf (mem : List Char) (off size : ℕ) (text : List Char) : List Char :=
  if size = 0 then mem else Buffer.store mem off (text.take (size - 1) ++ [nul])

/-- A text at `off` and a NUL behind it; `none` where they run past the end. -/
def put (mem : List Char) (off : ℕ) (text : List Char) : Option (List Char) :=
  if off + text.length < mem.length then some (Buffer.store mem off (text ++ [nul])) else none

/-- `strncat`: at most `n` characters and a NUL, behind the string that is there. -/
def strncat (mem src : List Char) (n : ℕ) : Option (List Char) := do
  let s ← read mem
  put mem s.length (src.take n)

theorem read_append {s : List Char} (hs : nul ∉ s) (rest : List Char) :
    read (s ++ nul :: rest) = some s := by
  have hall : ∀ c ∈ s, c ≠ nul := fun c hc h => hs (h ▸ hc)
  rw [read, if_pos (by simp), List.takeWhile_append_of_pos (by simpa using hall)]
  simp

theorem exists_of_read {mem s : List Char} (h : read mem = some s) :
    nul ∉ s ∧ ∃ rest, mem = s ++ nul :: rest := by
  have hmem : nul ∈ mem := by
    by_contra hn
    simp [read, hn] at h
  obtain ⟨s', rest, rfl, hs⟩ := List.eq_append_cons_of_mem hmem
  rw [read_append hs] at h
  obtain rfl := Option.some.inj h
  exact ⟨hs, rest, rfl⟩

theorem read_append_of_read {mem s : List Char} (h : read mem = some s) (rest : List Char) :
    read (mem ++ rest) = some s := by
  obtain ⟨hs, mem', rfl⟩ := exists_of_read h
  rw [List.append_assoc, List.cons_append, read_append hs]

theorem read_append_of_notMem {s : List Char} (hs : nul ∉ s) (rest : List Char) :
    read (s ++ rest) = (read rest).map (s ++ ·) := by
  have hall : ∀ c ∈ s, (c ≠ nul : Bool) := fun c hc => decide_eq_true fun h => hs (h ▸ hc)
  rw [read, read, List.takeWhile_append_of_pos hall]
  by_cases hrest : nul ∈ rest
  · rw [if_pos hrest, if_pos (List.mem_append_right s hrest)]
    rfl
  · rw [if_neg hrest, if_neg fun h => (List.mem_append.1 h).elim hs hrest]
    rfl

/-- A copy that is cut short keeps a NUL at its end. -/
theorem read_strncpy_take {s : List Char} (hs : nul ∉ s) {len : ℕ} (h : 0 < len) :
    read ((strncpy len s).set (len - 1) nul) = some (s.take (len - 1)) := by
  obtain ⟨k, rfl⟩ : ∃ k, len = k + 1 := ⟨len - 1, by omega⟩
  rw [Nat.add_sub_cancel]
  -- in front of the last character, the copy is the string and what fills it up
  have hfill : ((s ++ List.replicate (k + 1) nul).take k)
      = s.take k ++ List.replicate (min (k - s.length) (k + 1)) nul := by
    rw [List.take_append, List.take_replicate]
  have hlen : ((s ++ List.replicate (k + 1) nul).take k).length = k := by
    rw [List.length_take, List.length_append, List.length_replicate]
    omega
  have hlt : k < (s ++ List.replicate (k + 1) nul).length := by
    rw [List.length_append, List.length_replicate]
    omega
  have hset : (strncpy (k + 1) s).set k nul
      = (s ++ List.replicate (k + 1) nul).take k ++ [nul] := by
    rw [strncpy, List.take_succ_eq_append_getElem hlt,
      List.set_append_right _ _ (Nat.le_of_eq hlen), hlen, Nat.sub_self, List.set_cons_zero]
  rw [hset, hfill, List.append_assoc, ← List.replicate_succ', List.replicate_succ]
  exact read_append (fun h => hs (List.mem_of_mem_take h)) _

theorem snprintf_append (l r : List Char) {text : List Char} {size : ℕ} (h : text.length < size) :
    snprintf (l ++ r) l.length size text = l ++ text ++ nul :: r.drop (text.length + 1) := by
  rw [snprintf, if_neg (by omega), List.take_of_length_le (by omega), Buffer.store_append]
  simp

/-! ## Strings that grow -/

/-- Memory of `room` characters, with the string in it. -/
structure Holds (room : ℕ) (mem s : List Char) : Prop where
  length : mem.length = room
  read : read mem = some s

section Holds

variable {room off : ℕ} {mem s text : List Char}

theorem holds_put_zero (hmem : mem.length = room) (htext : nul ∉ text)
    (hfits : text.length < room) : ∃ out, put mem 0 text = some out ∧ Holds room out text := by
  have hlen : (text ++ [nul]).length = text.length + 1 := by simp
  refine ⟨Buffer.store mem 0 (text ++ [nul]), if_pos (by omega), ?_, ?_⟩
  · rw [Buffer.length_store (by omega), hmem]
  · rw [Buffer.store_zero, List.append_assoc]
    exact read_append htext _

theorem Holds.put (h : Holds room mem s) (hoff : off = s.length) (htext : nul ∉ text)
    (hfits : s.length + text.length < room) :
    ∃ out, put mem off text = some out ∧ Holds room out (s ++ text) := by
  subst hoff
  obtain ⟨hs, rest, hmem⟩ := exists_of_read h.read
  have hlen : (text ++ [nul]).length = text.length + 1 := by simp
  have hroom := h.length
  refine ⟨Buffer.store mem s.length (text ++ [nul]), if_pos (by omega), ?_, ?_⟩
  · rw [Buffer.length_store (by omega), hroom]
  · rw [hmem, Buffer.store_append, ← List.append_assoc, List.append_assoc]
    exact read_append (fun hmem => (List.mem_append.1 hmem).elim hs htext) _

theorem Holds.strncat {n : ℕ} (h : Holds room mem s) (htext : nul ∉ text) (hn : text.length ≤ n)
    (hfits : s.length + text.length < room) :
    ∃ out, strncat mem text n = some out ∧ Holds room out (s ++ text) := by
  obtain ⟨out, hput, hout⟩ := h.put rfl htext hfits
  refine ⟨out, ?_, hout⟩
  rw [CString.strncat, h.read, List.take_of_length_le hn]
  exact hput

/-- A NUL in the middle cuts the string off. -/
theorem Holds.cut {n : ℕ} (h : Holds room mem s) (hn : n < s.length) :
    Holds room (mem.set n nul) (s.take n) := by
  obtain ⟨hs, rest, hmem⟩ := exists_of_read h.read
  refine ⟨by rw [List.length_set, h.length], ?_⟩
  rw [hmem, List.set_append_left _ _ hn, List.set_eq_take_append_cons_drop, if_pos hn,
    List.append_assoc]
  exact read_append (fun hmem => hs (List.mem_of_mem_take hmem)) _

theorem holds_empty (hmem : mem.length = room) (hroom : 0 < room) :
    Holds room (mem.set 0 nul) [] := by
  obtain ⟨c, rest, rfl⟩ := List.exists_cons_of_length_pos (hmem ▸ hroom)
  exact ⟨by rw [List.length_set, hmem], read_append (s := []) List.not_mem_nil rest⟩

end Holds

/-! ## Lines -/

/-- Neither a NUL nor a newline. -/
def Plain (cs : List Char) : Prop := ∀ c ∈ cs, c ≠ nul ∧ c ≠ '\n'

instance (cs : List Char) : Decidable (Plain cs) := List.decidableBAll _ cs

def IsLine (line : List Char) : Prop := ∃ cs, Plain cs ∧ line = cs ++ ['\n']

theorem plain_nil : Plain [] := fun _ h => absurd h List.not_mem_nil

theorem Plain.append {cs ds : List Char} (hc : Plain cs) (hd : Plain ds) : Plain (cs ++ ds) :=
  fun c h => (List.mem_append.1 h).elim (hc c) (hd c)

theorem Plain.subset {cs ds : List Char} (hd : Plain ds) (h : cs ⊆ ds) : Plain cs :=
  fun c hc => hd c (h hc)

theorem Plain.nul_notMem {cs : List Char} (h : Plain cs) : nul ∉ cs := fun hc => (h nul hc).1 rfl

theorem nul_notMem_flatten {lines : List (List Char)} (h : ∀ l ∈ lines, IsLine l) :
    nul ∉ lines.flatten := by
  intro hmem
  obtain ⟨l, hl, hnul⟩ := List.mem_flatten.1 hmem
  obtain ⟨cs, hcs, rfl⟩ := h l hl
  rcases List.mem_append.1 hnul with hc | hc
  · exact (hcs nul hc).1 rfl
  · exact absurd hc (by decide)

theorem plain_append_inj : ∀ {cs ds r r' : List Char}, Plain cs → Plain ds →
    cs ++ '\n' :: r = ds ++ '\n' :: r' → cs = ds ∧ r = r'
  | [], [], _, _, _, _, h => ⟨rfl, (List.cons.inj h).2⟩
  | [], d :: _, _, _, _, hd, h => absurd (List.cons.inj h).1.symm (hd d List.mem_cons_self).2
  | c :: _, [], _, _, hc, _, h => absurd (List.cons.inj h).1 (hc c List.mem_cons_self).2
  | c :: cs, d :: ds, r, r', hc, hd, h => by
    obtain ⟨rfl, htail⟩ := List.cons.inj h
    obtain ⟨rfl, hr⟩ := plain_append_inj (fun x hx => hc x (List.mem_cons_of_mem c hx))
      (fun x hx => hd x (List.mem_cons_of_mem c hx)) htail
    exact ⟨rfl, hr⟩

theorem flatten_inj : ∀ {ls ms : List (List Char)}, (∀ l ∈ ls, IsLine l) → (∀ m ∈ ms, IsLine m) →
    ls.flatten = ms.flatten → ls = ms
  | [], [], _, _, _ => rfl
  | [], m :: ms, _, hm, h => by
    obtain ⟨cs, -, rfl⟩ := hm m List.mem_cons_self
    simp at h
  | l :: ls, [], hl, _, h => by
    obtain ⟨cs, -, rfl⟩ := hl l List.mem_cons_self
    simp at h
  | l :: ls, m :: ms, hl, hm, h => by
    obtain ⟨cs, hcs, rfl⟩ := hl l List.mem_cons_self
    obtain ⟨ds, hds, rfl⟩ := hm m List.mem_cons_self
    rw [List.flatten_cons, List.flatten_cons, List.append_assoc, List.append_assoc] at h
    obtain ⟨rfl, htail⟩ := plain_append_inj hcs hds h
    rw [flatten_inj (fun x hx => hl x (List.mem_cons_of_mem _ hx))
      (fun x hx => hm x (List.mem_cons_of_mem _ hx)) htail]

end CString
