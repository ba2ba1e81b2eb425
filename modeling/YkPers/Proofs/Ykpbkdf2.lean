import YkPers.Lib.Pbkdf2
import YkPers.Ykpbkdf2

/-!
# What `yk_pbkdf2` computes, and where it reads

An iteration takes the exclusive or of `block` into all of the output that is left, not only into
the bytes of its own block. What `block` holds behind the result of the function is the same in
each iteration (`iterationLoop_ok`), so that it is gone after an even number of them, and is part
of the output after an odd one.
-/

namespace YkPers

open Pbkdf2 (be32 blocks derived input tByte blocks_le mul_lt_of_lt_blocks div_lt_blocks
  length_derived getD_derived)

/-! ## The scratch block -/

section Block

variable {block : List UInt8} {s : DkState}

theorem useIndex_ok {i : ℕ} (h : i < block.length) :
    useIndex block i s = (.ok ⟨⟩, { s with indices := s.indices ++ [i] }) := by
  rw [useIndex, Proc.modify_bind_run, if_pos h, Proc.pure_run]

theorem useIndex_fault {i : ℕ} (h : ¬ i < block.length) :
    useIndex block i s = (.fault, { s with indices := s.indices ++ [i] }) := by
  rw [useIndex, Proc.modify_bind_run, if_neg h, Proc.fault_run]

theorem store_set {i : ℕ} (b : UInt8) (bs : List UInt8) (h : i < block.length) :
    Buffer.store (block.set i b) (i + 1) bs = Buffer.store block i (b :: bs) := by
  have htake : (block.set i b).take (i + 1) = block.take i ++ [b] := by
    rw [List.take_succ_eq_append_getElem (by rwa [List.length_set]), List.getElem_set_self,
      List.take_set, List.set_eq_of_length_le]
    rw [List.length_take]
    omega
  have hdrop : (block.set i b).drop (i + 1 + bs.length) = block.drop (i + (b :: bs).length) := by
    rw [List.drop_set_of_lt (by omega), List.length_cons, Nat.add_right_comm, Nat.add_assoc]
  rw [Buffer.store, Buffer.store, htake, hdrop, List.append_assoc, List.append_assoc,
    List.append_assoc, List.singleton_append, List.cons_append]

theorem storeBytes_ok : ∀ {bs : List UInt8} {block : List UInt8} {i : ℕ} {s : DkState},
    i + bs.length ≤ block.length → storeBytes block i bs s
      = (.ok (Buffer.store block i bs), { s with indices := s.indices ++ List.range' i bs.length })
  | [], block, i, s, _ => by simp [storeBytes, Buffer.store]
  | b :: bs, block, i, s, h => by
    rw [List.length_cons] at h
    have hi : i < block.length := by omega
    rw [storeBytes, Proc.bind_ok (useIndex_ok hi),
      storeBytes_ok (by rw [List.length_set]; omega), store_set b bs hi, List.length_cons,
      List.range'_succ, List.append_assoc]
    rfl

/-- The first index past the end is used. -/
theorem storeBytes_fault : ∀ (bs block : List UInt8) (i : ℕ) (s : DkState),
    i ≤ block.length → block.length < i + bs.length →
      (storeBytes block i bs s).1 = .fault ∧
        block.length ∈ (storeBytes block i bs s).2.indices
  | [], block, i, s, hi, h => by
    rw [List.length_nil] at h
    omega
  | b :: bs, block, i, s, hi, h => by
    rw [List.length_cons] at h
    rcases Nat.lt_or_ge i block.length with hlt | hge
    · rw [storeBytes, Proc.bind_ok (useIndex_ok hlt)]
      have ih := storeBytes_fault bs (block.set i b) (i + 1)
        { s with indices := s.indices ++ [i] } (by rw [List.length_set]; omega)
        (by rw [List.length_set]; omega)
      rwa [List.length_set] at ih
    · rw [storeBytes, Proc.bind_fault (useIndex_fault (by omega)), Nat.le_antisymm hi hge]
      exact ⟨rfl, by simp⟩

theorem getD_modify {dk : List UInt8} {p : ℕ} (hp : p < dk.length) (q : ℕ) (f : UInt8 → UInt8) :
    (dk.modify q f).getD p 0 = if q = p then f (dk.getD p 0) else dk.getD p 0 := by
  simp only [List.getD_eq_getElem?_getD, List.getElem?_modify, List.getElem?_eq_getElem hp]
  rfl

/-- Byte `p` of an output into which `n` bytes of the block are taken, from byte `off` on. -/
theorem xorLoop_ok (block : List UInt8) (off : ℕ) : ∀ (n i : ℕ) (s : DkState),
    i + n ≤ block.length →
    ∃ dk, xorLoop off block i n s
        = (.ok ⟨⟩, ⟨dk, s.indices ++ List.range' i n⟩) ∧ dk.length = s.dk.length ∧
      ∀ p < s.dk.length, dk.getD p 0 = s.dk.getD p 0 ^^^
        if off + i ≤ p ∧ p < off + i + n then block.getD (p - off) 0 else 0
  | 0, i, s, _ => by
    refine ⟨s.dk, by simp [xorLoop], rfl, fun p _ => ?_⟩
    rw [if_neg (by omega), UInt8.xor_zero]
  | n + 1, i, s, h => by
    obtain ⟨dk, hrun, hlen, hbyte⟩ := xorLoop_ok block off n (i + 1)
      ⟨s.dk.modify (off + i) (· ^^^ block.getD i 0), s.indices ++ [i]⟩ (by omega)
    refine ⟨dk, ?_, by rw [hlen, List.length_modify], fun p hp => ?_⟩
    · rw [xorLoop, Proc.bind_ok (useIndex_ok (by omega)), Proc.modify_bind_run, hrun,
        List.range'_succ, List.append_assoc]
      rfl
    · rw [hbyte p (by rwa [List.length_modify]), getD_modify hp]
      rcases Nat.lt_trichotomy p (off + i) with hlt | rfl | hgt
      · rw [if_neg (by omega), if_neg (by omega), if_neg (by omega)]
      · rw [if_pos rfl, if_neg (by omega), if_pos (by omega), Nat.add_sub_cancel_left,
          UInt8.xor_zero]
      · rw [if_neg (by omega)]
        congr 1
        exact if_congr (by omega) rfl rfl

theorem xorLoop_fault (block : List UInt8) (off : ℕ) : ∀ (n i : ℕ) (s : DkState),
    i ≤ block.length → block.length < i + n → (xorLoop off block i n s).1 = .fault ∧
      block.length ∈ (xorLoop off block i n s).2.indices
  | 0, i, s, hi, h => by omega
  | n + 1, i, s, hi, h => by
    rcases Nat.lt_or_ge i block.length with hlt | hge
    · rw [xorLoop, Proc.bind_ok (useIndex_ok hlt), Proc.modify_bind_run]
      exact xorLoop_fault block off n (i + 1) _ (by omega) (by omega)
    · rw [xorLoop, Proc.bind_fault (useIndex_fault (by omega)), Nat.le_antisymm hi hge]
      exact ⟨rfl, by simp⟩

end Block

/-! ## One block -/

theorem counterBytes_eq (n : UInt32) : counterBytes n = be32 n.toNat := by
  have hbyte : ∀ (mask : UInt32) (k : ℕ), mask.toNat >>> k = 255 → k < 32 →
      ((n &&& mask) >>> UInt32.ofNat k).toUInt8 = UInt8.ofNat (n.toNat / 2 ^ k) := by
    intro mask k hmask hk
    apply UInt8.toNat_inj.1
    have hk' : (UInt32.ofNat k).toNat = k := UInt32.toNat_ofNat_of_lt' (Nat.lt_trans hk (by decide))
    rw [UInt32.toNat_toUInt8, UInt32.toNat_shiftRight, UInt32.toNat_and, hk', Nat.mod_eq_of_lt hk,
      Nat.shiftRight_and_distrib, hmask, Nat.and_two_pow_sub_one_eq_mod _ 8, Nat.mod_mod,
      Nat.shiftRight_eq_div_pow, UInt8.toNat_ofNat']
  rw [counterBytes, be32]
  congr 1
  · exact hbyte 0xff000000 24 (by decide) (by omega)
  congr 1
  · exact hbyte 0x00ff0000 16 (by decide) (by omega)
  congr 1
  · exact hbyte 0x0000ff00 8 (by decide) (by omega)
  congr 1
  · simpa using hbyte 0x000000ff 0 (by decide) (by omega)

/-- A block before its first iteration: the salt and the number `i`, and what was there. -/
def startBytes (scratch salt : List UInt8) (i : ℕ) : List UInt8 :=
  Buffer.store scratch 0 (salt ++ be32 i)

section Start

variable (scratch salt : List UInt8) (blockCount : UInt32) (s : DkState)

theorem startBlock_ok (h : salt.length + 4 ≤ scratch.length) :
    startBlock scratch salt blockCount s = (.ok (startBytes scratch salt blockCount.toNat),
      { s with indices := s.indices ++ List.range' 0 (salt.length + 4) }) := by
  have hlen : (counterBytes blockCount).length = 4 := rfl
  have hs : (Buffer.store scratch 0 salt).length = scratch.length := Buffer.length_store (by omega)
  rw [startBlock, Proc.bind_ok (storeBytes_ok (by omega)), storeBytes_ok (by omega),
    Buffer.store_store, counterBytes_eq, List.append_assoc, ← counterBytes_eq, hlen,
    ← List.range'_append_1, Nat.zero_add, startBytes, counterBytes_eq]

theorem startBlock_fault (h : salt.length ≤ scratch.length)
    (h4 : scratch.length < salt.length + 4) :
    (startBlock scratch salt blockCount s).1 = .fault ∧
      scratch.length ∈ (startBlock scratch salt blockCount s).2.indices := by
  have hs : (Buffer.store scratch 0 salt).length = scratch.length := Buffer.length_store (by omega)
  rw [startBlock, Proc.bind_ok (storeBytes_ok (by omega)), ← hs]
  exact storeBytes_fault _ _ _ _ (by omega) (by rw [hs]; exact h4)

theorem length_startBytes (i : ℕ) (h : salt.length + 4 ≤ scratch.length) :
    (startBytes scratch salt i).length = scratch.length :=
  Buffer.length_store (by simpa [be32] using h)

theorem take_startBytes (i : ℕ) :
    (startBytes scratch salt i).take (salt.length + 4) = salt ++ be32 i := by
  rw [startBytes, Buffer.store, List.take_zero, List.nil_append]
  exact List.take_left' (by simp [be32])

end Start

/-! ## The iterations -/

/-- The PRF succeeds with this passphrase and writes exactly its output size. -/
structure YkPrfMethod.Computes (m : YkPrfMethod) (passphrase : List UInt8)
    (prf : List UInt8 → List UInt8) : Prop where
  result : ∀ text, m.prfFn passphrase text blockSize = some (prf text)
  length : ∀ text, (prf text).length = m.outputSize

/-- Byte `q` of the block behind iteration `j`, counted from 0, that started with `block` and the
function applied to `text`. -/
def blockByte (prf : List UInt8 → List UInt8) (h : ℕ) (block text : List UInt8) (j q : ℕ) : UInt8 :=
  if q < h then (prf^[j + 1] text).getD q 0 else block.getD q 0

section Iterations

variable {m : YkPrfMethod} {passphrase : List UInt8} {prf : List UInt8 → List UInt8}

/-- Results of the output size, for which there is room in a block. -/
structure YkPrfMethod.Fits (m : YkPrfMethod) (prf : List UInt8 → List UInt8) : Prop where
  length : ∀ text, (prf text).length = m.outputSize
  le : m.outputSize ≤ blockSize

theorem YkPrfMethod.Computes.fits (hm : m.Computes passphrase prf) : m.Fits prf := by
  refine ⟨hm.length, ?_⟩
  rw [← hm.length []]
  exact m.bounded _ _ _ _ (hm.result [])

theorem getD_store_zero {block out : List UInt8} (q : ℕ) :
    (Buffer.store block 0 out).getD q 0
      = if q < out.length then out.getD q 0 else block.getD q 0 := by
  simp only [Buffer.store, List.take_zero, List.nil_append, Nat.zero_add,
    List.getD_eq_getElem?_getD]
  split_ifs with h
  · rw [List.getElem?_append_left h]
  · rw [List.getElem?_append_right (Nat.not_lt.1 h), List.getElem?_drop,
      Nat.add_sub_cancel' (Nat.not_lt.1 h)]

/-- The blocks of one run take up where the first one of them ends. -/
theorem blockByte_succ (hm : m.Fits prf) (block text : List UInt8) (j q : ℕ) :
    blockByte prf m.outputSize (Buffer.store block 0 (prf text)) (prf text) j q
      = blockByte prf m.outputSize block text (j + 1) q := by
  unfold blockByte
  split_ifs with hq
  · rw [Function.iterate_succ_apply prf (j + 1)]
  · rw [getD_store_zero, hm.length, if_neg hq]

theorem take_store (hm : m.Fits prf) (block text : List UInt8) :
    (Buffer.store block 0 (prf text)).take m.outputSize = prf text := by
  rw [Buffer.store, List.take_zero, List.nil_append]
  exact List.take_left' (hm.length text)

theorem iterationLoop_ok (hm : m.Fits prf) (off : ℕ) {dklen : ℕ} (hle : dklen ≤ blockSize) :
    ∀ (n : ℕ) (block : List UInt8) (blockLen : ℕ) (s : DkState), block.length = blockSize →
      (∀ j < n, m.prfFn passphrase (prf^[j] (block.take blockLen)) blockSize
        = some (prf (prf^[j] (block.take blockLen)))) →
      ∃ s', iterationLoop m passphrase off dklen n block blockLen s
          = (.ok (if n = 0 then blockLen else m.outputSize), s') ∧ s'.dk.length = s.dk.length ∧
        ∀ p < s.dk.length, s'.dk.getD p 0 = s.dk.getD p 0 ^^^
          if off ≤ p ∧ p < off + dklen then
            xorSum (fun j => blockByte prf m.outputSize block (block.take blockLen) j (p - off)) n
          else 0
  | 0, block, blockLen, s, _, _ => by
    refine ⟨s, rfl, rfl, fun p _ => ?_⟩
    rw [xorSum, ite_self, UInt8.xor_zero]
  | n + 1, block, blockLen, s, hblock, hres => by
    have hstore : (Buffer.store block 0 (prf (block.take blockLen))).length = blockSize := by
      rw [Buffer.length_store (by rw [Nat.zero_add, hm.length, hblock]; exact hm.le), hblock]
    obtain ⟨dk, hrun, hlen, hbyte⟩ := xorLoop_ok
      (Buffer.store block 0 (prf (block.take blockLen))) off dklen 0 s (by omega)
    obtain ⟨s', hrun', hlen', hbyte'⟩ := iterationLoop_ok hm off hle n _
      m.outputSize ⟨dk, s.indices ++ List.range' 0 dklen⟩ hstore fun j hj => by
        rw [take_store hm]
        exact hres (j + 1) (by omega)
    refine ⟨s', ?_, hlen'.trans hlen, fun p hp => ?_⟩
    · have hfirst : m.prfFn passphrase (block.take blockLen) blockSize
          = some (prf (block.take blockLen)) := hres 0 n.succ_pos
      rw [iterationLoop, hblock, hfirst]
      dsimp only
      rw [Proc.bind_ok hrun, hrun', ite_self, if_neg n.succ_ne_zero]
    · rw [hbyte' p (by rwa [hlen]), hbyte p hp, UInt8.xor_assoc]
      congr 1
      simp only [Nat.add_zero]
      split_ifs
      · rw [xorSum_succ', take_store hm, getD_store_zero, hm.length]
        simp only [blockByte_succ hm]
        rfl
      · rw [UInt8.xor_zero]

/-- The iterations end with the first call that fails. -/
theorem iterationLoop_fail (hm : m.Fits prf)
    (hprf : ∀ text out, m.prfFn passphrase text blockSize = some out → prf text = out) (off : ℕ)
    {dklen : ℕ} (hle : dklen ≤ blockSize) :
    ∀ (n : ℕ) (block : List UInt8) (blockLen : ℕ) (s : DkState), block.length = blockSize →
      (∃ j < n, m.prfFn passphrase (prf^[j] (block.take blockLen)) blockSize = none) →
      (iterationLoop m passphrase off dklen n block blockLen s).1 = .fail
  | 0, _, _, _, _, ⟨j, hj, _⟩ => absurd hj (Nat.not_lt_zero j)
  | n + 1, block, blockLen, s, hblock, ⟨j, hj, hnone⟩ => by
    rw [iterationLoop, hblock]
    rcases hout : m.prfFn passphrase (block.take blockLen) blockSize with _ | out
    · rfl
    · obtain rfl := hprf _ _ hout
      have hstore : (Buffer.store block 0 (prf (block.take blockLen))).length = blockSize := by
        rw [Buffer.length_store (by rw [Nat.zero_add, hm.length, hblock]; exact hm.le), hblock]
      obtain ⟨dk, hrun, -, -⟩ := xorLoop_ok
        (Buffer.store block 0 (prf (block.take blockLen))) off dklen 0 s (by omega)
      dsimp only
      rw [Proc.bind_ok hrun]
      refine iterationLoop_fail hm hprf off hle n _ _ _ hstore ?_
      rcases j with _ | j
      · rw [Function.iterate_zero_apply, hout] at hnone
        cases hnone
      · exact ⟨j, by omega, by rwa [take_store hm]⟩

end Iterations

/-! ## The blocks -/

section Blocks

variable {m : YkPrfMethod} {passphrase salt : List UInt8} {prf : List UInt8 → List UInt8}
  {scratch : Scratch}

variable (m salt prf scratch) in
/-- What block `k + 1` adds to byte `p` of the output. -/
def blockShare (c k p : ℕ) : UInt8 :=
  if k * m.outputSize ≤ p then
    xorSum (fun j => blockByte prf m.outputSize (startBytes (scratch (k + 1)).toList salt (k + 1))
      (salt ++ be32 (k + 1)) j (p - k * m.outputSize)) c
  else 0

theorem toNat_blockCount {k : ℕ} (hk : k ≤ blockSize) : (UInt32.ofNat (k + 1)).toNat = k + 1 :=
  UInt32.toNat_ofNat_of_lt' (by simp only [blockSize, UInt32.size] at hk ⊢; omega)

variable (m passphrase salt prf) in
/-- The calls that `c` iterations of `l` blocks make succeed. -/
def CallsSucceed (c l : ℕ) : Prop := ∀ k j, k < l → j < c →
  m.prfFn passphrase (input prf salt (k + 1) j) blockSize = some (prf (input prf salt (k + 1) j))

/-- The bytes of the output from block `k + 1` on, of which `d` blocks are left. -/
theorem blockLoop_ok (hm : m.Fits prf) (hh : 0 < m.outputSize) {c n : ℕ}
    (hres : CallsSucceed m passphrase salt prf c (blocks m.outputSize n)) (hc : 0 < c)
    (hsalt : salt.length + 4 ≤ blockSize) (hn : n ≤ blockSize) (scratch : Scratch) :
    ∀ (d k fuel : ℕ) (s : DkState), k + d = blocks m.outputSize n → d < fuel →
      s.dk.length = n → ∃ s', blockLoop m passphrase salt c (blocks m.outputSize n) scratch fuel
          (UInt32.ofNat (k + 1)) (min (k * m.outputSize) n) (n - min (k * m.outputSize) n) s
            = (.ok ⟨⟩, s') ∧ s'.dk.length = n ∧
        ∀ p < n, s'.dk.getD p 0
          = s.dk.getD p 0 ^^^ xorSum (fun j => blockShare m salt prf scratch c (k + j) p) d
  | _, _, 0, _, _, hfuel, _ => absurd hfuel (Nat.not_lt_zero _)
  | 0, k, fuel + 1, s, hk, _, hs => by
    have hle := blocks_le hh n
    refine ⟨s, ?_, hs, fun p _ => by rw [xorSum, UInt8.xor_zero]⟩
    rw [blockLoop, toNat_blockCount (by omega), if_neg (by omega), Proc.pure_run]
  | d + 1, k, fuel + 1, s, hk, hfuel, hs => by
    have hle := blocks_le hh n
    have hlt : k * m.outputSize < n := mul_lt_of_lt_blocks hh (by omega)
    have hoff : min (k * m.outputSize) n = k * m.outputSize := Nat.min_eq_left (Nat.le_of_lt hlt)
    have hblock : (startBytes (scratch (k + 1)).toList salt (k + 1)).length = blockSize := by
      rw [length_startBytes _ _ _ (by rwa [Vector.length_toList]), Vector.length_toList]
    have hstart := startBlock_ok (scratch (k + 1)).toList salt (UInt32.ofNat (k + 1)) s
      (by rwa [Vector.length_toList])
    obtain ⟨s₁, hrun₁, hlen₁, hbyte₁⟩ := iterationLoop_ok hm (k * m.outputSize)
      (show n - k * m.outputSize ≤ blockSize by omega) c _ (salt.length + 4)
      { s with indices := s.indices ++ List.range' 0 (salt.length + 4) } hblock fun j hj => by
        rw [take_startBytes]
        exact hres k j (by omega) hj
    rw [if_neg (Nat.ne_of_gt hc)] at hrun₁
    have hnext : k * m.outputSize + (if m.outputSize > n - k * m.outputSize
        then n - k * m.outputSize else m.outputSize) = min ((k + 1) * m.outputSize) n := by
      rw [Nat.succ_mul]
      split_ifs <;> omega
    obtain ⟨s', hrun, hlen, hbyte⟩ := blockLoop_ok hm hh hres hc hsalt hn scratch d (k + 1)
      fuel s₁ (by omega) (by omega) (hlen₁.trans hs)
    refine ⟨s', ?_, hlen, fun p hp => ?_⟩
    · rw [blockLoop, toNat_blockCount (by omega), if_pos (by omega), hoff, Proc.bind_ok hstart,
        toNat_blockCount (by omega), Proc.bind_ok hrun₁, Nat.sub_sub, hnext, ← hrun,
        UInt32.ofNat_add (k + 1) 1]
      rfl
    · rw [hbyte p hp, hbyte₁ p (by rwa [hs]), UInt8.xor_assoc, xorSum_succ', take_startBytes]
      congr 1
      congr 1
      · simp only [Nat.add_zero, blockShare]
        exact if_congr (by omega) rfl rfl
      · simp only [Nat.add_right_comm k 1, Nat.add_assoc]

/-! ### A byte of the output -/

variable (m salt scratch) in
/-- What block `k + 1` held at the place of byte `p` of the output before its first iteration. -/
def staleByte (k p : ℕ) : UInt8 :=
  (startBytes (scratch (k + 1)).toList salt (k + 1)).getD (p - k * m.outputSize) 0

/-- An earlier block adds what it held behind the result, once for each iteration. -/
theorem blockShare_earlier (hh : 0 < m.outputSize) (c : ℕ) {k p : ℕ} (hk : k < p / m.outputSize) :
    blockShare m salt prf scratch c k p
      = if c % 2 = 0 then 0 else staleByte m salt scratch k p := by
  have hle : (k + 1) * m.outputSize ≤ p := (Nat.le_div_iff_mul_le hh).1 hk
  rw [Nat.succ_mul] at hle
  rw [blockShare, if_pos (by omega), ← xorSum_const]
  exact xorSum_congr fun j _ => if_neg (by omega)

theorem blockShare_own (hh : 0 < m.outputSize) (c p : ℕ) :
    blockShare m salt prf scratch c (p / m.outputSize) p
      = tByte prf salt c (p / m.outputSize + 1) (p % m.outputSize) := by
  have hmod : p - p / m.outputSize * m.outputSize = p % m.outputSize :=
    (Nat.mod_eq_sub_div_mul).symm
  rw [blockShare, if_pos (Nat.div_mul_le_self p m.outputSize), hmod]
  refine xorSum_congr fun j _ => ?_
  rw [blockByte, if_pos (Nat.mod_lt p hh), Function.iterate_succ_apply', input]

theorem blockShare_later (hh : 0 < m.outputSize) (c : ℕ) {k p : ℕ} (hk : p / m.outputSize < k) :
    blockShare m salt prf scratch c k p = 0 :=
  if_neg (Nat.not_le.2 ((Nat.div_lt_iff_lt_mul hh).1 hk))

/-- A byte of the output: that of its own block, and what the earlier blocks leave behind after an
odd number of iterations. -/
theorem xorSum_blockShare (hh : 0 < m.outputSize) (c : ℕ) {n p : ℕ} (hp : p < n) :
    xorSum (fun k => blockShare m salt prf scratch c k p) (blocks m.outputSize n)
      = (if c % 2 = 0 then 0 else xorSum (fun k => staleByte m salt scratch k p) (p / m.outputSize))
        ^^^ tByte prf salt c (p / m.outputSize + 1) (p % m.outputSize) := by
  have hzeros : ∀ k, p / m.outputSize + 1 ≤ k → k < blocks m.outputSize n →
      blockShare m salt prf scratch c k p = 0 := fun k hk _ => blockShare_later hh c hk
  rw [xorSum_of_zeros (div_lt_blocks hh hp) hzeros, xorSum, blockShare_own hh,
    xorSum_congr fun k hk => blockShare_earlier hh c hk]
  split_ifs with hc
  · rw [xorSum_const, ite_self]
  · rfl

end Blocks

/-! ## The number of blocks -/

theorem blockTotal_eq {n h : ℕ} (hh : 0 < h) (hle : n + h ≤ 2 ^ 64) :
    blockTotal n h = blocks h n := by
  rw [blockTotal, blocks]
  congr 1
  omega

theorem blockTotal_wrap {n h : ℕ} (hn : n < 2 ^ 64) (hlt : 2 ^ 64 < n + h) (hh : h ≤ 2 ^ 64) :
    blockTotal n h = 0 := by
  rw [blockTotal]
  exact Nat.div_eq_of_lt (by omega)

theorem blockTotal_zero {h : ℕ} (hh : 0 < h) (hle : h ≤ 2 ^ 64) : blockTotal 0 h = 0 := by
  rw [blockTotal]
  exact Nat.div_eq_of_lt (by omega)

/-! ## The indices -/

section Inside

variable {m : YkPrfMethod} {passphrase salt : List UInt8} {scratch : Scratch}

/-- Every index used so far is one of the block. -/
def DkState.Inside (s : DkState) : Prop := ∀ i ∈ s.indices, i < blockSize

theorem inside_append {s : DkState} (h : s.Inside) {i n : ℕ} (hn : i + n ≤ blockSize)
    (dk : List UInt8) : DkState.Inside ⟨dk, s.indices ++ List.range' i n⟩ := by
  intro j hj
  rcases List.mem_append.1 hj with hj | hj
  · exact h j hj
  · have := List.mem_range'_1.1 hj
    omega

theorem inside_iterationLoop (m : YkPrfMethod) (passphrase : List UInt8) (off : ℕ) {dklen : ℕ} :
    ∀ (n : ℕ) (block : List UInt8) (blockLen : ℕ) (s : DkState),
      n = 0 ∨ dklen ≤ blockSize → block.length = blockSize → s.Inside →
      (iterationLoop m passphrase off dklen n block blockLen s).2.Inside
  | 0, block, blockLen, s, _, _, hs => hs
  | n + 1, block, blockLen, s, hn, hblock, hs => by
    have hle : dklen ≤ blockSize := hn.resolve_left n.succ_ne_zero
    rw [iterationLoop]
    rcases hout : m.prfFn passphrase (block.take blockLen) block.length with _ | out
    · exact hs
    · have hstore : (Buffer.store block 0 out).length = blockSize := by
        have := m.bounded _ _ _ _ hout
        rw [Buffer.length_store (by omega), hblock]
      obtain ⟨dk, hrun, -, -⟩ := xorLoop_ok (Buffer.store block 0 out) off dklen 0 s
        (by omega)
      dsimp only
      rw [Proc.bind_ok hrun]
      exact inside_iterationLoop m passphrase off n _ _ _ (.inr hle) hstore
        (inside_append hs (by omega) dk)

theorem inside_startBlock (blockCount : UInt32) (block : Vector UInt8 blockSize)
    (hsalt : salt.length + 4 ≤ blockSize) {s : DkState} (hs : s.Inside) :
    ∃ s', startBlock block.toList salt blockCount s
      = (.ok (startBytes block.toList salt blockCount.toNat), s') ∧ s'.Inside :=
  ⟨_, startBlock_ok _ _ _ _ (by rwa [Vector.length_toList]), inside_append hs (by omega) s.dk⟩

theorem inside_blockLoop {c l : ℕ} (hsalt : salt.length + 4 ≤ blockSize) :
    ∀ {fuel : ℕ} {blockCount : UInt32} {off dklen : ℕ} {s : DkState},
      c = 0 ∨ dklen ≤ blockSize → s.Inside →
        (blockLoop m passphrase salt c l scratch fuel blockCount off dklen s).2.Inside
  | 0, _, _, _, _, _, hs => hs
  | fuel + 1, blockCount, off, dklen, s, hn, hs => by
    rw [blockLoop]
    split_ifs
    · obtain ⟨s₁, hstart, hs₁⟩ := inside_startBlock blockCount (scratch blockCount.toNat)
        hsalt hs
      have hblock := length_startBytes (scratch blockCount.toNat).toList salt blockCount.toNat
        (by rwa [Vector.length_toList])
      rw [Vector.length_toList] at hblock
      have hs₂ := inside_iterationLoop m passphrase off c _ (salt.length + 4) _ hn hblock hs₁
      rw [Proc.bind_ok hstart]
      refine Proc.bind_state (fun blockLen t ht => ?_) fun _ => hs₂
      rw [ht] at hs₂
      exact inside_blockLoop hsalt (hn.imp_right fun h => by omega) hs₂
    · exact hs

theorem ykPbkdf2_run (passphrase : List UInt8) (hsalt : salt.length ≤ 256)
    (hh : 0 < m.outputSize) (scratch : Scratch) (c fuel : ℕ) (s : DkState) :
    ykPbkdf2 m passphrase salt c scratch fuel s
      = blockLoop m passphrase salt c (blockTotal s.dk.length m.outputSize) scratch fuel 1 0
          s.dk.length { s with dk := List.replicate s.dk.length 0 } := by
  rw [ykPbkdf2, if_neg (Nat.not_lt.2 hsalt), if_neg (Nat.ne_of_gt hh), Proc.get_bind_run,
    Proc.modify_bind_run]

theorem blockLoop_zero (c fuel : ℕ) (s : DkState) (off dklen : ℕ) :
    blockLoop m passphrase salt c 0 scratch (fuel + 1) 1 off dklen s = (.ok ⟨⟩, s) := rfl

/-- A first block whose number and salt do not fit. -/
theorem blockLoop_salt {c l fuel off dklen : ℕ} (hl : 0 < l) (hle : salt.length ≤ blockSize)
    (hsalt : blockSize < salt.length + 4) (s : DkState) :
    (blockLoop m passphrase salt c l scratch (fuel + 1) 1 off dklen s).1 = .fault ∧
      blockSize ∈
        (blockLoop m passphrase salt c l scratch (fuel + 1) 1 off dklen s).2.indices := by
  obtain ⟨h1, h2⟩ := startBlock_fault (scratch (1 : UInt32).toNat).toList salt 1 s
    (by rwa [Vector.length_toList]) (by rwa [Vector.length_toList])
  rw [Vector.length_toList] at h2
  rw [blockLoop, if_pos (show (1 : UInt32).toNat ≤ l from hl), Proc.bind_fault (Proc.run_eq h1)]
  exact ⟨rfl, h2⟩

/-- An iteration that takes more bytes than there are in a block. -/
theorem iterationLoop_fault (off n : ℕ) {dklen blockLen : ℕ} {block out : List UInt8}
    (hblock : block.length = blockSize) (hdk : blockSize < dklen)
    (hout : m.prfFn passphrase (block.take blockLen) blockSize = some out) (s : DkState) :
    (iterationLoop m passphrase off dklen (n + 1) block blockLen s).1 = .fault ∧
      blockSize ∈
        (iterationLoop m passphrase off dklen (n + 1) block blockLen s).2.indices := by
  have hstore : (Buffer.store block 0 out).length = blockSize := by
    have := m.bounded _ _ _ _ hout
    rw [Buffer.length_store (by omega), hblock]
  obtain ⟨h1, h2⟩ := xorLoop_fault (Buffer.store block 0 out) off dklen 0 s
    (Nat.zero_le _) (by omega)
  rw [hstore] at h2
  rw [iterationLoop, hblock, hout]
  dsimp only
  rw [Proc.bind_fault (Proc.run_eq h1)]
  exact ⟨rfl, h2⟩

theorem blockLoop_xor {c l fuel off dklen : ℕ} (hl : 0 < l) (hc : 0 < c)
    (hsalt : salt.length + 4 ≤ blockSize) (hdk : blockSize < dklen) {out : List UInt8}
    (hout : m.prfFn passphrase (salt ++ be32 1) blockSize = some out) (s : DkState) :
    (blockLoop m passphrase salt c l scratch (fuel + 1) 1 off dklen s).1 = .fault ∧
      blockSize ∈
        (blockLoop m passphrase salt c l scratch (fuel + 1) 1 off dklen s).2.indices := by
  obtain ⟨n, rfl⟩ := Nat.exists_eq_succ_of_ne_zero (Nat.ne_of_gt hc)
  have hstart := startBlock_ok (scratch (1 : UInt32).toNat).toList salt 1 s
    (by rwa [Vector.length_toList])
  have hblock := length_startBytes (scratch (1 : UInt32).toNat).toList salt (1 : UInt32).toNat
    (by rwa [Vector.length_toList])
  rw [Vector.length_toList] at hblock
  obtain ⟨h1, h2⟩ := iterationLoop_fault off n hblock hdk (by rwa [take_startBytes])
    { s with indices := s.indices ++ List.range' 0 (salt.length + 4) }
  rw [blockLoop, if_pos (show (1 : UInt32).toNat ≤ l from hl), Proc.bind_ok hstart,
    Proc.bind_fault (Proc.run_eq h1)]
  exact ⟨rfl, h2⟩

/-- A first call of the function that fails. -/
theorem inside_blockLoop_of_none {c l fuel off dklen : ℕ} (hsalt : salt.length + 4 ≤ blockSize)
    (hout : m.prfFn passphrase (salt ++ be32 1) blockSize = none) {s : DkState} (hs : s.Inside) :
    (blockLoop m passphrase salt (c + 1) l scratch (fuel + 1) 1 off dklen s).2.Inside := by
  obtain ⟨s₁, hstart, hs₁⟩ := inside_startBlock 1 (scratch (1 : UInt32).toNat) hsalt hs
  have hblock := length_startBytes (scratch (1 : UInt32).toNat).toList salt (1 : UInt32).toNat
    (by rwa [Vector.length_toList])
  rw [Vector.length_toList] at hblock
  have hfail : iterationLoop m passphrase off dklen (c + 1)
      (startBytes (scratch (1 : UInt32).toNat).toList salt (1 : UInt32).toNat) (salt.length + 4) s₁
        = (.fail, s₁) := by
    rw [iterationLoop, take_startBytes, hblock, show (1 : UInt32).toNat = 1 from rfl, hout]
    rfl
  rw [blockLoop]
  split_ifs
  · rw [Proc.bind_ok hstart, Proc.bind_fail hfail]
    exact hs₁
  · exact hs

/-- Every index is one of the block exactly when there is no block, or the number of a block fits
behind the salt and no iteration takes more bytes than a block has. -/
theorem ykPbkdf2_inside_iff (m : YkPrfMethod) (passphrase : List UInt8) {salt : List UInt8}
    (hsalt : salt.length ≤ 256) (c : ℕ) (scratch : Scratch) (dk : List UInt8) :
    (∀ fuel, (ykPbkdf2 m passphrase salt c scratch fuel ⟨dk, []⟩).2.Inside) ↔
      blockTotal dk.length m.outputSize = 0 ∨ salt.length + 4 ≤ blockSize ∧
        (c = 0 ∨ dk.length ≤ blockSize ∨
          m.prfFn passphrase (salt ++ be32 1) blockSize = none) := by
  have hnil : ∀ dk', DkState.Inside ⟨dk', []⟩ := fun dk' i hi => absurd hi List.not_mem_nil
  rcases Nat.eq_zero_or_pos m.outputSize with h0 | hh
  · refine iff_of_true (fun fuel => ?_) (.inl (by rw [blockTotal, h0, Nat.div_zero]))
    rw [ykPbkdf2, if_neg (Nat.not_lt.2 hsalt), if_pos h0]
    exact hnil dk
  simp only [fun fuel => ykPbkdf2_run passphrase hsalt hh scratch c fuel ⟨dk, []⟩]
  constructor
  · intro h
    by_contra hcond
    obtain ⟨hl, hrest⟩ := not_or.1 hcond
    have hl := Nat.pos_of_ne_zero hl
    rcases Nat.lt_or_ge blockSize (salt.length + 4) with h4 | h4
    · exact Nat.lt_irrefl _ (h 1 blockSize (blockLoop_salt hl hsalt h4 _).2)
    · obtain ⟨hc, hrest⟩ := not_or.1 fun hr => hrest ⟨h4, hr⟩
      obtain ⟨hdk, hout⟩ := not_or.1 hrest
      obtain ⟨out, hout⟩ := Option.ne_none_iff_exists'.1 hout
      exact Nat.lt_irrefl _ (h 1 blockSize
        (blockLoop_xor hl (Nat.pos_of_ne_zero hc) h4 (Nat.not_le.1 hdk) hout _).2)
  · rintro (hl | ⟨h4, hrest⟩) fuel
    · rw [hl]
      rcases fuel with _ | fuel
      · exact hnil _
      · rw [blockLoop_zero]
        exact hnil _
    · rcases or_assoc.2 hrest with hn | hout
      · exact inside_blockLoop h4 hn (hnil _)
      · rcases c with _ | c
        · exact inside_blockLoop h4 (.inl rfl) (hnil _)
        rcases fuel with _ | fuel
        · exact hnil _
        · exact inside_blockLoop_of_none h4 hout (hnil _)

end Inside

/-! ## The output -/

section Output

variable {m : YkPrfMethod} {passphrase salt : List UInt8} {prf : List UInt8 → List UInt8}
  {scratch : Scratch}

/-- The bytes that the output gets, whatever the function gives. -/
theorem ykPbkdf2_ok (hm : m.Fits prf) (hh : 0 < m.outputSize) {c : ℕ} (hc : 0 < c)
    (hsalt : salt.length + 4 ≤ blockSize) {dk : List UInt8} (hdk : dk.length ≤ blockSize)
    (hres : CallsSucceed m passphrase salt prf c (blocks m.outputSize dk.length))
    (scratch : Scratch) {fuel : ℕ} (hfuel : blocks m.outputSize dk.length < fuel)
    (indices : List ℕ) :
    ∃ s', ykPbkdf2 m passphrase salt c scratch fuel ⟨dk, indices⟩ = (.ok ⟨⟩, s') ∧
      s'.dk.length = dk.length ∧ ∀ p < dk.length, s'.dk.getD p 0
        = (if c % 2 = 0 then 0
            else xorSum (fun k => staleByte m salt scratch k p) (p / m.outputSize))
          ^^^ tByte prf salt c (p / m.outputSize + 1) (p % m.outputSize) := by
  have hle := hm.le
  obtain ⟨s', hrun, hlen, hbyte⟩ := blockLoop_ok hm hh hres hc hsalt hdk scratch _ 0 fuel
    ⟨List.replicate dk.length 0, indices⟩ (Nat.zero_add _) hfuel List.length_replicate
  refine ⟨s', ?_, hlen, fun p hp => ?_⟩
  · rw [Nat.zero_mul, Nat.zero_min, Nat.sub_zero] at hrun
    rw [ykPbkdf2_run _ (by simp only [blockSize] at hsalt; omega) hh, blockTotal_eq hh
      (by simp only [blockSize] at hdk hle ⊢; omega)]
    exact hrun
  · have hzero : (List.replicate dk.length (0 : UInt8)).getD p 0 = 0 := by
      simp [List.getD_eq_getElem?_getD, hp]
    rw [hbyte p hp, hzero, UInt8.zero_xor]
    simp only [Nat.zero_add]
    exact xorSum_blockShare hh c hp

theorem ext_getD {x y : List UInt8} (hlen : x.length = y.length)
    (h : ∀ p < y.length, x.getD p 0 = y.getD p 0) : x = y := by
  refine List.ext_getElem hlen fun p hx hy => ?_
  simpa [List.getD_eq_getElem?_getD, hx, hy] using h p hy

theorem xor_eq_right_iff (a b : UInt8) : a ^^^ b = b ↔ a = 0 := by
  rw [← UInt8.xor_left_inj (a := a) b, UInt8.zero_xor]

variable (m salt scratch) in
/-- What the earlier blocks leave behind is gone: they took it an even number of times, or it
cancels in every byte. -/
def Cancels (c n : ℕ) : Prop :=
  c % 2 = 0 ∨ ∀ p, m.outputSize ≤ p → p < n →
    xorSum (fun k => staleByte m salt scratch k p) (p / m.outputSize) = 0

theorem ykPbkdf2_derived (hm : m.Fits prf) (hh : 0 < m.outputSize) {c : ℕ} (hc : 0 < c)
    (hsalt : salt.length + 4 ≤ blockSize) {dk : List UInt8} (hdk : dk.length ≤ blockSize)
    (hres : CallsSucceed m passphrase salt prf c (blocks m.outputSize dk.length))
    (scratch : Scratch) (hgone : Cancels m salt scratch c dk.length) {fuel : ℕ}
    (hfuel : blocks m.outputSize dk.length < fuel) (indices : List ℕ) :
    ∃ s', ykPbkdf2 m passphrase salt c scratch fuel ⟨dk, indices⟩ = (.ok ⟨⟩, s') ∧
      s'.dk = derived prf salt m.outputSize c dk.length := by
  obtain ⟨s', hrun, hlen, hbyte⟩ := ykPbkdf2_ok hm hh hc hsalt hdk hres scratch hfuel indices
  refine ⟨s', hrun, ext_getD (by rw [hlen, length_derived hh]) fun p hp => ?_⟩
  rw [length_derived hh] at hp
  rw [hbyte p hp, getD_derived hh hp, xor_eq_right_iff]
  rcases hgone with heven | hcancel
  · rw [if_pos heven]
  · rcases Nat.lt_or_ge p m.outputSize with hlt | hge
    · rw [Nat.div_eq_of_lt hlt, xorSum, ite_self]
    · rw [hcancel p hge hp, ite_self]

/-- A call for the first block that fails is the end of it. -/
theorem ykPbkdf2_fail (hm : m.Fits prf)
    (hprf : ∀ text out, m.prfFn passphrase text blockSize = some out → prf text = out)
    (hh : 0 < m.outputSize) {c : ℕ} (hsalt : salt.length + 4 ≤ blockSize) {dk : List UInt8}
    (hpos : 0 < dk.length) (hdk : dk.length ≤ blockSize)
    (hfail : ∃ j < c, m.prfFn passphrase (input prf salt 1 j) blockSize = none)
    (scratch : Scratch) (fuel : ℕ) (indices : List ℕ) :
    (ykPbkdf2 m passphrase salt c scratch (fuel + 1) ⟨dk, indices⟩).1 = .fail := by
  have hle := hm.le
  have hl : (1 : UInt32).toNat ≤ blockTotal dk.length m.outputSize := by
    rw [blockTotal_eq hh (by simp only [blockSize] at hdk hle ⊢; omega)]
    exact Nat.lt_of_le_of_lt (Nat.zero_le _) (div_lt_blocks hh hpos)
  have hstart := startBlock_ok (scratch (1 : UInt32).toNat).toList salt 1
    ⟨List.replicate dk.length 0, indices⟩ (by rwa [Vector.length_toList])
  have hblock := length_startBytes (scratch (1 : UInt32).toNat).toList salt (1 : UInt32).toNat
    (by rwa [Vector.length_toList])
  rw [Vector.length_toList] at hblock
  have hrun := iterationLoop_fail hm hprf 0 hdk c _ (salt.length + 4)
    ⟨List.replicate dk.length 0, indices ++ List.range' 0 (salt.length + 4)⟩ hblock
    (by rwa [take_startBytes])
  rw [ykPbkdf2_run _ (by simp only [blockSize] at hsalt; omega) hh, blockLoop, if_pos hl,
    Proc.bind_ok hstart, Proc.bind_fail (Proc.run_eq hrun)]

/-! ### When it is the derived key -/

variable (m passphrase salt prf scratch) in
/-- With enough fuel the function returns 1, and the output is the derived key. -/
def Derives (c : ℕ) (dk : List UInt8) (indices : List ℕ) : Prop :=
  ∃ enough, ∀ fuel ≥ enough, ∃ s',
    ykPbkdf2 m passphrase salt c scratch fuel ⟨dk, indices⟩ = (.ok ⟨⟩, s') ∧
      s'.dk = derived prf salt m.outputSize c dk.length

theorem ykPbkdf2_none (hh : 0 < m.outputSize) (hsalt : salt.length ≤ 256) (c fuel : ℕ)
    {dk : List UInt8} (hl : blockTotal dk.length m.outputSize = 0) (indices : List ℕ) :
    ykPbkdf2 m passphrase salt c scratch (fuel + 1) ⟨dk, indices⟩
      = (.ok ⟨⟩, ⟨List.replicate dk.length 0, indices⟩) := by
  rw [ykPbkdf2_run _ hsalt hh, hl, blockLoop_zero]

theorem derives_of_none (hh : 0 < m.outputSize) (hsalt : salt.length ≤ 256) (c : ℕ)
    {dk : List UInt8} (hl : blockTotal dk.length m.outputSize = 0) (indices : List ℕ) :
    Derives m passphrase salt prf scratch c dk indices ↔
      derived prf salt m.outputSize c dk.length = List.replicate dk.length 0 := by
  constructor
  · rintro ⟨enough, h⟩
    obtain ⟨s', hrun, hkey⟩ := h (enough + 1) (Nat.le_succ enough)
    rw [ykPbkdf2_none hh hsalt c enough hl] at hrun
    obtain rfl := (Prod.mk.inj hrun).2
    exact hkey.symm
  · intro hkey
    refine ⟨1, fun fuel hfuel => ?_⟩
    obtain ⟨fuel, rfl⟩ := Nat.exists_eq_succ_of_ne_zero (Nat.ne_of_gt hfuel)
    exact ⟨_, ykPbkdf2_none hh hsalt c fuel hl _, hkey.symm⟩

theorem not_derives_of_overrun (hm : m.Computes passphrase prf) (hh : 0 < m.outputSize) {c : ℕ}
    (hc : 0 < c) (hsalt : salt.length ≤ 256) {dk : List UInt8}
    (hl : 0 < blockTotal dk.length m.outputSize)
    (hover : blockSize < salt.length + 4 ∨ blockSize < dk.length) (indices : List ℕ) :
    ¬ Derives m passphrase salt prf scratch c dk indices := by
  rintro ⟨enough, h⟩
  obtain ⟨s', hrun, -⟩ := h (enough + 1) (Nat.le_succ enough)
  rw [ykPbkdf2_run _ hsalt hh] at hrun
  have hfault : (blockLoop m passphrase salt c (blockTotal dk.length m.outputSize) scratch
      (enough + 1) 1 0 dk.length ⟨List.replicate dk.length 0, indices⟩).1 = .fault := by
    rcases Nat.lt_or_ge blockSize (salt.length + 4) with h4 | h4
    · exact (blockLoop_salt hl hsalt h4 _).1
    · exact (blockLoop_xor hl hc h4 (hover.resolve_left (Nat.not_lt.2 h4)) (hm.result _) _).1
  rw [hrun] at hfault
  cases hfault

theorem derives_iff_cancels (hm : m.Computes passphrase prf) (hh : 0 < m.outputSize) {c : ℕ}
    (hc : 0 < c) (hsalt : salt.length + 4 ≤ blockSize) {dk : List UInt8}
    (hdk : dk.length ≤ blockSize) (indices : List ℕ) :
    Derives m passphrase salt prf scratch c dk indices ↔
      Cancels m salt scratch c dk.length := by
  have hres : CallsSucceed m passphrase salt prf c (blocks m.outputSize dk.length) :=
    fun _ _ _ _ => hm.result _
  constructor
  · rintro ⟨enough, h⟩
    refine or_iff_not_imp_left.2 fun hodd p hp hpn => ?_
    obtain ⟨s₁, hrun₁, hkey⟩ := h (enough + (blocks m.outputSize dk.length + 1))
      (Nat.le_add_right _ _)
    obtain ⟨s₂, hrun₂, -, hbyte⟩ := ykPbkdf2_ok hm.fits hh hc hsalt hdk hres scratch
      (show blocks m.outputSize dk.length < enough + (blocks m.outputSize dk.length + 1) by omega)
      indices
    obtain rfl := (Prod.mk.inj (hrun₁.symm.trans hrun₂)).2
    have hp' := hbyte p hpn
    rw [hkey, getD_derived hh hpn, if_neg hodd] at hp'
    exact (xor_eq_right_iff _ _).1 hp'.symm
  · exact fun hgone => ⟨blocks m.outputSize dk.length + 1, fun fuel hfuel =>
      ykPbkdf2_derived hm.fits hh hc hsalt hdk hres scratch hgone (Nat.lt_of_succ_le hfuel) indices⟩

/-- The output is the derived key exactly when there is none to derive, or the number of a block
fits behind the salt, the output is no longer than a block, and what the earlier blocks leave
behind is gone. (Were the output so long that the number of blocks overflows to 0, it would be all
zeros.) -/
theorem ykPbkdf2_derives_iff (hm : m.Computes passphrase prf) (hh : 0 < m.outputSize) {c : ℕ}
    (hc : 0 < c) (hsalt : salt.length ≤ 256) {dk : List UInt8} (hdk : dk.length < 2 ^ 64)
    (indices : List ℕ) :
    Derives m passphrase salt prf scratch c dk indices ↔
      dk.length = 0 ∨
        (2 ^ 64 < dk.length + m.outputSize ∧
          derived prf salt m.outputSize c dk.length = List.replicate dk.length 0) ∨
        (salt.length + 4 ≤ blockSize ∧ dk.length ≤ blockSize ∧
          Cancels m salt scratch c dk.length) := by
  have hle : m.outputSize ≤ 2 ^ 64 := Nat.le_trans hm.fits.le (by decide)
  rcases Nat.eq_zero_or_pos dk.length with h0 | hpos
  · refine iff_of_true ?_ (.inl h0)
    rw [derives_of_none hh hsalt c (by rw [h0]; exact blockTotal_zero hh hle), h0]
    exact List.length_eq_zero_iff.1 (length_derived hh 0)
  have hpos' := Nat.ne_of_gt hpos
  rcases Nat.lt_or_ge (2 ^ 64) (dk.length + m.outputSize) with hwrap | hwrap
  · have hlong : ¬ dk.length ≤ blockSize := by
      have hm' := hm.fits.le
      simp only [blockSize] at hm' ⊢
      omega
    rw [derives_of_none hh hsalt c (blockTotal_wrap hdk hwrap hle)]
    constructor
    · exact fun h => .inr (.inl ⟨hwrap, h⟩)
    · rintro (h | ⟨-, h⟩ | ⟨-, h, -⟩)
      · exact absurd h hpos'
      · exact h
      · exact absurd h hlong
  have hl : 0 < blockTotal dk.length m.outputSize := by
    rw [blockTotal_eq hh hwrap]
    exact Nat.lt_of_le_of_lt (Nat.zero_le _) (div_lt_blocks hh hpos)
  by_cases hover : blockSize < salt.length + 4 ∨ blockSize < dk.length
  · refine iff_of_false (not_derives_of_overrun hm hh hc hsalt hl hover indices) ?_
    rintro (h | ⟨h, -⟩ | ⟨h4, h256, -⟩)
    · exact hpos' h
    · omega
    · omega
  · obtain ⟨h4, h256⟩ := not_or.1 hover
    rw [derives_iff_cancels hm hh hc (Nat.not_lt.1 h4) (Nat.not_lt.1 h256)]
    constructor
    · exact fun h => .inr (.inr ⟨Nat.not_lt.1 h4, Nat.not_lt.1 h256, h⟩)
    · rintro (h | ⟨h, -⟩ | ⟨-, -, h⟩)
      · exact absurd h hpos'
      · omega
      · exact h

end Output

section Runs

/-- A function of 20 bytes over all bytes that it is given. -/
def foldPrf : YkPrfMethod where
  outputSize := 20
  prfFn key text size :=
    if size < 20 then none
    else some ((List.range 20).map fun i =>
      (key ++ text).foldl (fun a b => 31 * a + b) (UInt8.ofNat i))
  bounded key text size out h := by
    split_ifs at h with hsize
    obtain rfl := Option.some.inj h
    simpa using Nat.not_lt.1 hsize

def foldPrfOf (passphrase text : List UInt8) : List UInt8 :=
  (List.range 20).map fun i =>
    (passphrase ++ text).foldl (fun a b => 31 * a + b) (UInt8.ofNat i)

theorem foldPrf_computes (passphrase : List UInt8) :
    foldPrf.Computes passphrase (foldPrfOf passphrase) :=
  ⟨fun _ => rfl, fun _ => by simp [foldPrfOf, foldPrf]⟩

def zeroScratch : Scratch := fun _ => Vector.replicate blockSize 0

theorem ykPbkdf2_inside_iff_salt :
    (∀ fuel, (ykPbkdf2 foldPrf [1] [2, 3] 1 zeroScratch fuel ⟨List.replicate 20 0, []⟩).2.Inside) ↔
      blockTotal (List.replicate 20 (0 : UInt8)).length foldPrf.outputSize = 0 ∨
        ([2, 3] : List UInt8).length + 4 ≤ blockSize ∧
          (1 = 0 ∨ (List.replicate 20 (0 : UInt8)).length ≤ blockSize ∨
            foldPrf.prfFn [1] ([2, 3] ++ be32 1) blockSize = none) :=
  ykPbkdf2_inside_iff foldPrf [1] (by decide) 1 zeroScratch _

/-- A salt of 253 bytes passes the check, and the last byte of the number is stored behind the
block. -/
theorem ykPbkdf2_overruns : (List.replicate 253 (0 : UInt8)).length ≤ 256 ∧
    ∃ fuel, ¬ (ykPbkdf2 foldPrf [1] (List.replicate 253 0) 1 zeroScratch fuel
      ⟨List.replicate 20 0, []⟩).2.Inside := by
  have hlen : (List.replicate 253 (0 : UInt8)).length = 253 := List.length_replicate
  generalize List.replicate 253 (0 : UInt8) = salt at hlen ⊢
  refine ⟨by omega, 1, fun h => ?_⟩
  rw [ykPbkdf2_run _ (by omega) (by decide)] at h
  have hsalt : blockSize < salt.length + 4 := by
    rw [hlen]
    decide
  exact Nat.lt_irrefl _
    (h blockSize (blockLoop_salt (by decide) (by rw [hlen]; decide) hsalt _).2)

theorem ykPbkdf2_derives_iff_even :
    Derives foldPrf [1] (List.replicate 32 1) (foldPrfOf [1]) zeroScratch 2
        (List.replicate 21 0) [] ↔
      (List.replicate 21 (0 : UInt8)).length = 0 ∨
        (2 ^ 64 < (List.replicate 21 (0 : UInt8)).length + foldPrf.outputSize ∧
          derived (foldPrfOf [1]) (List.replicate 32 1) foldPrf.outputSize 2
              (List.replicate 21 (0 : UInt8)).length
            = List.replicate (List.replicate 21 (0 : UInt8)).length 0) ∨
        ((List.replicate 32 (1 : UInt8)).length + 4 ≤ blockSize ∧
          (List.replicate 21 (0 : UInt8)).length ≤ blockSize ∧
          Cancels foldPrf (List.replicate 32 1) zeroScratch 2
            (List.replicate 21 (0 : UInt8)).length) :=
  ykPbkdf2_derives_iff (foldPrf_computes [1]) (by decide) (by decide) (by decide) (by decide) []

/-- With one iteration, a byte of the salt is taken into byte 20 of the output. -/
theorem ykPbkdf2_mixes_salt : foldPrf.Computes [1] (foldPrfOf [1]) ∧
    ¬ Derives foldPrf [1] (List.replicate 32 1) (foldPrfOf [1]) zeroScratch 1
      (List.replicate 21 0) [] := by
  refine ⟨foldPrf_computes [1], ?_⟩
  rw [derives_iff_cancels (foldPrf_computes [1]) (by decide) (by decide) (by decide) (by decide)]
  rintro (h | h)
  · exact absurd h (by decide)
  · exact absurd (h 20 (by decide) (by decide)) (by decide +kernel)

end Runs

end YkPers
