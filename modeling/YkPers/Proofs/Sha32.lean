import YkPers.Proofs.Hmac
import YkPers.Sha32

/-!
# The 32-bit branch computes what the other one does

Two words joined are one of 64 bits, and every macro is the operation on it (`WordPair.join`).
The only difference is a message of `2 ^ 96` bits, at which the branch finds its length too long.
-/

namespace YkPers

open BlockHash SecureHash
open ShaCode (shaSuccess)

/-! ## Words of two -/

namespace WordPair

def join (word : WordPair) : BitVec 64 := word.w0 ++ word.w1

variable {bits : ℕ} (x y z : WordPair)

theorem join_or : (x.or y).join = x.join ||| y.join := BitVec.or_append.symm

theorem join_xor : (x.xor y).join = x.join ^^^ y.join := BitVec.xor_append.symm

theorem join_and : (x.and y).join = x.join &&& y.join := BitVec.and_append.symm

theorem join_tilda : x.tilda.join = ~~~x.join := BitVec.not_append.symm

theorem toNat_join : x.join.toNat = x.w0.toNat * 2 ^ 32 + x.w1.toNat := by
  rw [join, BitVec.toNat_append, ← Nat.shiftLeft_add_eq_or_of_lt x.w1.isLt, Nat.shiftLeft_eq]

theorem getLsbD_join (i : ℕ) :
    x.join.getLsbD i = if i < 32 then x.w1.getLsbD i else x.w0.getLsbD (i - 32) := by
  rw [join, BitVec.getLsbD_append]

/-- A shift takes bits of one word, or of both where it is less than a word. -/
theorem join_shr (h0 : 0 < bits) (h : bits < 64) : (x.shr bits).join = x.join >>> bits := by
  refine BitVec.eq_of_getLsbD_eq fun i hi => ?_
  rw [BitVec.getLsbD_ushiftRight, getLsbD_join, getLsbD_join, shr]
  rcases Nat.lt_trichotomy bits 32 with hlt | rfl | hgt <;> grind

theorem join_shl (h0 : 0 < bits) (h : bits < 64) : (x.shl bits).join = x.join <<< bits := by
  refine BitVec.eq_of_getLsbD_eq fun i hi => ?_
  rw [BitVec.getLsbD_shiftLeft, getLsbD_join, getLsbD_join, shl]
  rcases Nat.lt_trichotomy bits 32 with hlt | rfl | hgt <;> grind

theorem join_rotr (h0 : 0 < bits) (h : bits < 64) : (x.rotr bits).join = shaRotr bits x.join := by
  rw [rotr, join_or, join_shr _ h0 h, join_shl _ (by omega) (by omega), shaRotr]

theorem join_SIGMA0 : x.SIGMA0.join = sha384512File.SIGMA0 x.join := by
  simp (disch := decide) only [SIGMA0, join_xor, join_rotr, sha384512File, BitVec.xor_assoc]

theorem join_SIGMA1 : x.SIGMA1.join = sha384512File.SIGMA1 x.join := by
  simp (disch := decide) only [SIGMA1, join_xor, join_rotr, sha384512File, BitVec.xor_assoc]

theorem join_sigma0 : x.sigma0.join = sha384512File.sigma0 x.join := by
  simp (disch := decide) only [sigma0, join_xor, join_rotr, join_shr, sha384512File,
    BitVec.xor_assoc]

theorem join_sigma1 : x.sigma1.join = sha384512File.sigma1 x.join := by
  simp (disch := decide) only [sigma1, join_xor, join_rotr, join_shr, sha384512File,
    BitVec.xor_assoc]

/-- The modified macro, which is equivalent. -/
theorem ch_modified {w : ℕ} (x y z : BitVec w) : (x &&& (y ^^^ z)) ^^^ z = shaCh x y z := by
  refine BitVec.eq_of_getLsbD_eq fun i hi => ?_
  rw [shaCh]
  simp only [BitVec.getLsbD_xor, BitVec.getLsbD_and, BitVec.getLsbD_not, hi]
  cases x.getLsbD i <;> cases y.getLsbD i <;> cases z.getLsbD i <;> rfl

theorem maj_modified {w : ℕ} (x y z : BitVec w) :
    (x &&& (y ||| z)) ||| (y &&& z) = shaMaj x y z := by
  refine BitVec.eq_of_getLsbD_eq fun i hi => ?_
  rw [shaMaj]
  simp only [BitVec.getLsbD_xor, BitVec.getLsbD_and, BitVec.getLsbD_or]
  cases x.getLsbD i <;> cases y.getLsbD i <;> cases z.getLsbD i <;> rfl

theorem join_ch (modified : Bool) : (ch modified x y z).join = shaCh x.join y.join z.join := by
  have hplain : ((x.and y).xor (x.tilda.and z)).join = shaCh x.join y.join z.join := by
    rw [join_xor, join_and, join_and, join_tilda, shaCh]
  cases modified
  · exact hplain
  · rw [← hplain, ch, if_pos rfl, ch_modified, ch_modified]
    rfl

theorem join_maj (modified : Bool) : (maj modified x y z).join = shaMaj x.join y.join z.join := by
  have hplain : ((x.and y).xor ((x.and z).xor (y.and z))).join = shaMaj x.join y.join z.join := by
    rw [join_xor, join_xor, join_and, join_and, join_and, shaMaj, BitVec.xor_assoc]
  cases modified
  · exact hplain
  · rw [← hplain, maj, if_pos rfl, maj_modified, maj_modified, shaMaj, shaMaj, BitVec.xor_assoc,
      BitVec.xor_assoc]
    rfl

theorem toNat_carry (c : Prop) [Decidable c] : (carry c).toNat = if c then 1 else 0 := by
  unfold carry
  split_ifs <;> rfl

theorem join_add : (x.add y).join = x.join + y.join := by
  have hx := x.w1.isLt
  have hy := y.w1.isLt
  have hx0 := x.w0.isLt
  have hy0 := y.w0.isLt
  apply BitVec.eq_of_toNat_eq
  rw [BitVec.toNat_add, toNat_join, toNat_join, toNat_join, add]
  simp only [BitVec.toNat_add, toNat_carry, BitVec.lt_def]
  split_ifs <;> omega

theorem addTo2_eq : x.addTo2 y = x.add y := by
  rw [addTo2, add]
  simp only [BitVec.add_assoc]

/-- The two words of one. -/
def halves (word : BitVec 64) : WordPair := ⟨word.extractLsb' 32 32, word.extractLsb' 0 32⟩

@[simp] theorem halves_join : halves x.join = x := by
  rw [halves, join, BitVec.extractLsb'_append_eq_left, BitVec.extractLsb'_append_eq_right]

@[simp] theorem join_halves (word : BitVec 64) : (halves word).join = word := by
  refine BitVec.eq_of_getLsbD_eq fun i hi => ?_
  rw [getLsbD_join, halves]
  grind

/-- The array of words in halves. -/
def split (words : List (BitVec 64)) : List (BitVec 32) :=
  words.flatMap fun word => [(halves word).w0, (halves word).w1]

theorem split_concat (words : List (BitVec 64)) (word : BitVec 64) :
    split (words ++ [word]) = split words ++ [(halves word).w0, (halves word).w1] := by
  rw [split, split, List.flatMap_append]
  rfl

theorem pair_split : ∀ (words : List (BitVec 64)) (t : ℕ),
    (pair (split words) (2 * t)).join = words.getD t 0
  | [], t => by simp [split, pair, join]
  | word :: words, 0 => join_halves word
  | word :: words, t + 1 => pair_split words t

end WordPair

/-! ## A block -/

open WordPair (join split pair_split halves halves_join join_add)

theorem sha512K32_eq : sha512K32 = split sha512K := by decide +kernel

theorem loadWord64_join (block : List UInt8) (i : ℕ) :
    loadWord64 block i = join ⟨loadWord32 block i, loadWord32 block (i + 4)⟩ := by
  have hlt : ∀ j, (block.getD j 0).toNat < 256 := fun j => (block.getD j 0).toNat_lt
  have h0 := hlt i
  have h1 := hlt (i + 1)
  have h2 := hlt (i + 2)
  have h3 := hlt (i + 3)
  have h4 := hlt (i + 4)
  have h5 := hlt (i + 5)
  have h6 := hlt (i + 6)
  have h7 := hlt (i + 7)
  apply BitVec.eq_of_toNat_eq
  rw [WordPair.toNat_join, loadWord64_ofNat, loadWord32_ofNat, loadWord32_ofNat]
  simp only [bytesValue, List.range_succ, List.range_zero, List.nil_append, List.cons_append,
    List.map_cons, List.map_nil, List.foldl_cons, List.foldl_nil, BitVec.toNat_ofNat, Nat.add_assoc,
    Nat.add_zero, Nat.reduceAdd]
  omega

theorem sha512Words32_eq (block : List UInt8) :
    sha512Words32 block = split (sha2Words sha384512File block) := by
  have hfirst : ((List.range 16).flatMap fun t =>
      [loadWord32 block (8 * t), loadWord32 block (8 * t + 4)])
        = split ((List.range 16).map fun t => loadWord64 block (t * 8)) := by
    rw [split, List.flatMap_map]
    refine List.flatMap_congr fun t _ => ?_
    rw [loadWord64_join, halves_join, Nat.mul_comm]
  rw [sha512Words32, hfirst, sha2Words]
  refine List.foldl_hom split fun W t => ?_
  have hword : WordPair.add
      (WordPair.add (WordPair.pair (split W) (2 * (t - 2))).sigma1
        (WordPair.pair (split W) (2 * (t - 7))))
      (WordPair.add (WordPair.pair (split W) (2 * (t - 15))).sigma0
        (WordPair.pair (split W) (2 * (t - 16))))
      = halves (sha384512File.sigma1 (W.getD (t - 2) 0) + W.getD (t - 7) 0
        + sha384512File.sigma0 (W.getD (t - 15) 0) + W.getD (t - 16) 0) := by
    rw [← halves_join (WordPair.add _ _)]
    simp only [join_add, WordPair.join_sigma0, WordPair.join_sigma1, pair_split, BitVec.add_assoc]
  dsimp only
  rw [hword, WordPair.split_concat]

theorem map_join (a b c d e f g h : WordPair) : #v[a, b, c, d, e, f, g, h].map join
    = #v[a.join, b.join, c.join, d.join, e.join, f.join, g.join, h.join] := by
  simp

theorem sha512Step32_eq (modified : Bool) (block : List UInt8) (v : Vector WordPair loopWords)
    (t : ℕ) : sha2Step sha384512File (sha2Words sha384512File block) (v.map join) t
      = (sha512Step32 modified (sha512Words32 block) v t).map join := by
  have hK : sha384512File.K = sha512K := rfl
  have htemp1 : (WordPair.add (WordPair.add (WordPair.add v[7] v[4].SIGMA1)
        (WordPair.ch modified v[4] v[5] v[6]))
        (WordPair.add (WordPair.pair sha512K32 (2 * t))
          (WordPair.pair (sha512Words32 block) (2 * t)))).join
      = v[7].join + sha384512File.SIGMA1 v[4].join + shaCh v[4].join v[5].join v[6].join
        + sha384512File.K.getD t 0 + (sha2Words sha384512File block).getD t 0 := by
    simp only [hK, join_add, WordPair.join_SIGMA1, WordPair.join_ch, sha512K32_eq,
      sha512Words32_eq, pair_split, BitVec.add_assoc]
  have htemp2 : (WordPair.add v[0].SIGMA0 (WordPair.maj modified v[0] v[1] v[2])).join
      = sha384512File.SIGMA0 v[0].join + shaMaj v[0].join v[1].join v[2].join := by
    rw [join_add, WordPair.join_SIGMA0, WordPair.join_maj]
  rw [sha512Step32, map_join, join_add _ (WordPair.add _ _), join_add v[3], htemp1, htemp2]
  simp only [sha2Step, Vector.getElem_map]

/-- The hash of 64-bit words. -/
def joinHash (H : Vector (BitVec 32) 16) : Vector (BitVec 64) 8 :=
  Vector.ofFn fun i => (hashPair H i).join

theorem hashPair_hashOfPairs (f : Fin 8 → WordPair) (i : Fin 8) :
    hashPair (hashOfPairs f) i = f i := by
  have hodd : (2 * i.1 + 1) / 2 = i := by omega
  simp [hashPair, hashOfPairs, hodd]

theorem joinHash_hashOfPairs (f : Fin 8 → WordPair) :
    joinHash (hashOfPairs f) = Vector.ofFn fun i => (f i).join := by
  simp only [joinHash, hashPair_hashOfPairs]

theorem sha512ProcessMessageBlock32_eq (modified : Bool) (H : Vector (BitVec 32) 16)
    (block : List UInt8) : joinHash (sha512ProcessMessageBlock32 modified H block)
      = sha2ProcessMessageBlock sha384512File (joinHash H) block := by
  have hstart : joinHash H = (Vector.ofFn (hashPair H)).map join := by
    refine Vector.ext fun i hi => ?_
    rw [joinHash, Vector.getElem_ofFn, Vector.getElem_map, Vector.getElem_ofFn]
  have hloop : (List.range 80).foldl (sha2Step sha384512File (sha2Words sha384512File block))
      (joinHash H) = ((List.range 80).foldl (sha512Step32 modified (sha512Words32 block))
        (Vector.ofFn (hashPair H))).map join := by
    rw [hstart]
    exact List.foldl_hom _ fun v t => sha512Step32_eq modified block v t
  refine Eq.trans ?_ (sha2ProcessMessageBlock_eq sha384512File (joinHash H) block).symm
  refine Vector.ext fun i hi => ?_
  rw [show sha384512File.K.length = 80 from rfl, hloop, sha512ProcessMessageBlock32,
    joinHash_hashOfPairs, Vector.getElem_ofFn, Vector.getElem_zipWith, Vector.getElem_map,
    WordPair.addTo2_eq, join_add, joinHash, Vector.getElem_ofFn]

/-! ## Lengths -/

namespace ShaLength4

def value (len : ShaLength4) : ℕ :=
  ((len.l0.toNat * 2 ^ 32 + len.l1.toNat) * 2 ^ 32 + len.l2.toNat) * 2 ^ 32 + len.l3.toNat

theorem value_zero : value ⟨0, 0, 0, 0⟩ = 0 := by decide

theorem addTo4_value {len : ShaLength4} {m : ℕ} (hm : m ≤ 8) (h : len.value + m ≤ 2 ^ 96) :
    (len.addTo4 ⟨0, 0, 0, BitVec.ofNat 32 m⟩).value = len.value + m := by
  have h0 := len.l0.isLt
  have h1 := len.l1.isLt
  have h2 := len.l2.isLt
  have h3 := len.l3.isLt
  rw [value] at h
  rw [value, value, addTo4]
  simp only [BitVec.toNat_add, WordPair.toNat_carry, BitVec.lt_def, BitVec.ofNat_eq_ofNat,
    BitVec.toNat_ofNat, Nat.zero_mod, Nat.zero_add]
  generalize len.l0.toNat = a at *
  generalize len.l1.toNat = b at *
  generalize len.l2.toNat = c at *
  generalize len.l3.toNat = d at *
  split_ifs <;> omega

/-- The length is found too long where its last three words are 0, and the first is less than 8. -/
theorem addLength_snd (len : ShaLength4) {m : ℕ} (hm : m ≤ 8) (h : len.value + m ≤ 2 ^ 96) :
    (len.addLength m).2 = decide (len.value + m = 0 ∨ len.value + m = 2 ^ 96) := by
  have hvalue := addTo4_value hm h
  rw [addLength]
  generalize len.addTo4 ⟨0, 0, 0, BitVec.ofNat 32 m⟩ = l at hvalue
  rw [decide_eq_decide, ← hvalue]
  rw [← hvalue] at h
  have h0 := l.l0.isLt
  have h1 := l.l1.isLt
  have h2 := l.l2.isLt
  have h3 := l.l3.isLt
  rw [value] at h ⊢
  simp only [← BitVec.toNat_inj, BitVec.lt_def, BitVec.ofNat_eq_ofNat, BitVec.toNat_ofNat]
  omega

theorem octets_eq (len : ShaLength4) : len.octets = beBytes 16 len.value := by
  have hhigh : beBytes 8 (join ⟨len.l0, len.l1⟩).toNat
      = beBytes 4 len.l0.toNat ++ beBytes 4 len.l1.toNat := by
    rw [WordPair.toNat_join]
    exact beBytes_value (n := 4) rfl ⟨len.l1, len.l0⟩
  have hlow : beBytes 8 (join ⟨len.l2, len.l3⟩).toNat
      = beBytes 4 len.l2.toNat ++ beBytes 4 len.l3.toNat := by
    rw [WordPair.toNat_join]
    exact beBytes_value (n := 4) rfl ⟨len.l3, len.l2⟩
  have hvalue : len.value
      = (join ⟨len.l0, len.l1⟩).toNat * 2 ^ 64 + (join ⟨len.l2, len.l3⟩).toNat := by
    rw [WordPair.toNat_join, WordPair.toNat_join, value]
    dsimp only
    omega
  have hbytes := beBytes_value (n := 8) rfl ⟨join ⟨len.l2, len.l3⟩, join ⟨len.l0, len.l1⟩⟩
  rw [hhigh, hlow] at hbytes
  rw [hvalue]
  refine Eq.trans ?_ hbytes.symm
  rfl

end ShaLength4

theorem sha384512Family32_computes (modified : Bool) :
    (sha384512Family32 modified).Computes joinHash (sha2Compress sha2Words64) ShaLength4.value
      (2 ^ 96) where
  process H block h := by
    rw [← sha2Compress_eq sha384512_agrees _ h]
    exact sha512ProcessMessageBlock32_eq modified H block
  noLength := ShaLength4.value_zero
  addLength l m h0 hm h := by
    refine ⟨ShaLength4.addTo4_value hm (Nat.le_of_lt h), ?_⟩
    refine (ShaLength4.addLength_snd l hm (Nat.le_of_lt h)).trans (decide_eq_false ?_)
    omega
  tooLong l h := (ShaLength4.addLength_snd l (Nat.le_refl 8) (Nat.le_of_eq h)).trans
    (decide_eq_true (.inr h))
  lengthOctets := ShaLength4.octets_eq
  lengthSize_lt := show 16 < 128 by decide
  dvd_limit := by decide
  limit_pos := by decide

/-! ## Results -/

theorem wordBytes_join (x : WordPair) : wordBytes x.join = wordBytes x.w0 ++ wordBytes x.w1 := by
  rw [wordBytes, wordBytes, wordBytes, WordPair.toNat_join]
  exact beBytes_value (n := 4) rfl ⟨x.w1, x.w0⟩

theorem joinHash_bytes (H : Vector (BitVec 32) 16) :
    H.toList.flatMap wordBytes = (joinHash H).toList.flatMap wordBytes := by
  have hlist : H.toList
      = (List.ofFn (hashPair H)).flatMap fun pair => [pair.w0, pair.w1] := by
    have hofFn : H = Vector.ofFn fun i => H[i.1] := Vector.ext fun i hi => by simp
    rw [hofFn, Vector.toList_ofFn]
    simp [List.ofFn_succ, hashPair]
  have hjoin : (joinHash H).toList = (List.ofFn (hashPair H)).map join := by
    rw [joinHash, Vector.toList_ofFn, List.map_ofFn]
    rfl
  rw [hlist, hjoin, List.flatMap_map, List.flatMap_assoc]
  refine List.flatMap_congr fun x _ => ?_
  rw [wordBytes_join]
  simp

theorem result32_eq {modified : Bool} {size : ℕ} (hsize : size ≤ 64)
    {H : Vector (BitVec 32) 16} {H0 : Vector (BitVec 64) 8} {M : List Bool}
    (h : joinHash H = finalHash 128 (sha384512Family32 modified) (sha2Compress sha2Words64) H0 M) :
    (List.range size).map ((sha384512Family32 modified).resultOctet H)
      = digest (sha2Compress sha2Words64) H0 size M := by
  have hH : joinHash H = blockFold (2 * 64) (sha2Compress sha2Words64) H0
      (pack (pad (16 * 64) (2 * 64) M)) := h
  rw [digest, ← hH, ← joinHash_bytes]
  exact map_wordOctet (b := 4) rfl (by decide) H hsize

theorem sha384H032_eq : joinHash sha384H032 = sha384H0 := by decide +kernel

theorem sha512H032_eq : joinHash sha512H032 = sha512H0 := by decide +kernel

/-! ## Sessions -/

def ShaCall.octetCount : ShaCall → ℕ
  | .input octets => octets.length
  | _ => 0

def ShaSession.octetCount : ShaSession → ℕ
  | .absorbing message => message.length
  | _ => 0

/-- Behind final bits, a session takes no more octets. -/
theorem octetCount_finalBits (messageBits : UInt8) (length : ℕ) (s : ShaSession) :
    (s.finalBits messageBits length).2.octetCount = 0 := by
  cases s with
  | absorbing message =>
    rw [ShaSession.finalBits]
    split_ifs <;> rfl
  | finished message => rfl
  | corrupted code =>
    rw [ShaSession.finalBits]
    split_ifs <;> rfl

section Limits

variable {hash : List Bool → List UInt8} {L L' : ℕ}

theorem step_limit {s : ShaSession} {c : ShaCall} (h : 8 * (s.octetCount + c.octetCount) < L)
    (h' : 8 * (s.octetCount + c.octetCount) < L') :
    s.step hash L c = s.step hash L' c ∧
      (s.step hash L c).2.octetCount ≤ s.octetCount + c.octetCount := by
  cases c with
  | input octets =>
    rw [ShaSession.step, ShaSession.step]
    split_ifs
    · exact ⟨rfl, Nat.le_add_right _ _⟩
    · cases s with
      | absorbing message =>
        rw [ShaSession.input, ShaSession.input,
          if_pos (show 8 * (message.length + octets.length) < L from h),
          if_pos (show 8 * (message.length + octets.length) < L' from h')]
        exact ⟨rfl, Nat.le_of_eq List.length_append⟩
      | finished message => exact ⟨rfl, Nat.zero_le _⟩
      | corrupted code => exact ⟨rfl, Nat.zero_le _⟩
  | finalBits messageBits length =>
    refine ⟨rfl, ?_⟩
    rw [ShaSession.step]
    split_ifs
    · exact Nat.le_add_right _ _
    · dsimp only
      rw [octetCount_finalBits]
      exact Nat.zero_le _
  | result =>
    refine ⟨rfl, ?_⟩
    cases s <;> exact Nat.zero_le _

/-- A session that stays below two limits gives the same answers under both. -/
theorem answers_limit : ∀ (calls : List ShaCall) (s : ShaSession),
    8 * (s.octetCount + (calls.map ShaCall.octetCount).sum) < L →
    8 * (s.octetCount + (calls.map ShaCall.octetCount).sum) < L' →
    Session.answers (ShaSession.step hash L) s calls
      = Session.answers (ShaSession.step hash L') s calls
  | [], s, _, _ => rfl
  | c :: calls, s, h, h' => by
    rw [List.map_cons, List.sum_cons] at h h'
    obtain ⟨hstep, hle⟩ : s.step hash L c = s.step hash L' c ∧
        (s.step hash L c).2.octetCount ≤ s.octetCount + c.octetCount :=
      step_limit (by omega) (by omega)
    rw [Session.answers_cons, Session.answers_cons, ← hstep,
      answers_limit calls _ (by omega) (by omega)]

end Limits

/-- What the calls of a family return behind its reset. -/
def shaAnswers {η ℓ : Type} {n : ℕ} (F : ShaFamily η ℓ n) (H0 : η) (hashSize : ℕ)
    (calls : List ShaCall) : Proc (ShaContext η ℓ n) (List (ℕ × List UInt8)) := do
  let code ← shaReset F H0
  let answers ← Session.run (shaCall F hashSize) calls
  pure ((code, []) :: answers)

theorem shaAnswers_eq {η ℓ σ : Type} {n : ℕ} {F : ShaFamily η ℓ n} {view : η → σ}
    {compress : σ → List UInt8 → σ} {value : ℓ → ℕ} {limit : ℕ}
    (hF : F.Computes view compress value limit) {H0 : η} {s0 : σ} (hview : view H0 = s0)
    {hash : List Bool → List UInt8} {hashSize : ℕ}
    (hhash : ∀ H M, view H = finalHash n F compress s0 M →
      (List.range hashSize).map (F.resultOctet H) = hash M)
    (calls : List ShaCall) (c : ShaContext η ℓ n) :
    (shaAnswers F H0 hashSize calls c).1 = .ok ((shaSuccess.toNat, []) ::
      Session.answers (ShaSession.step hash limit) (.absorbing []) calls) := by
  obtain ⟨c₁, hreset, h₁⟩ := shaReset_ok hF hview c
  obtain ⟨c₂, hrun, -⟩ := (shaCall_refines hF hhash).run calls h₁
  rw [shaAnswers, Proc.bind_ok hreset, Proc.bind_ok hrun]
  rfl

theorem branches_agree (modified : Bool) {H0 : Vector (BitVec 32) 16} {H0' : Vector (BitVec 64) 8}
    (hjoin : joinHash H0 = H0') {size : ℕ} (hsize : size ≤ 64) {calls : List ShaCall}
    (h : 8 * (calls.map ShaCall.octetCount).sum < 2 ^ 96)
    (c : ShaContext (Vector (BitVec 32) 16) ShaLength4 128) (c' : Sha512Context) :
    (shaAnswers (sha384512Family32 modified) H0 size calls c).1
      = (shaAnswers sha384512Family H0' size calls c').1 := by
  have h0 : 8 * ((ShaSession.absorbing []).octetCount + (calls.map ShaCall.octetCount).sum)
      < 2 ^ 96 := by
    rwa [ShaSession.octetCount, List.length_nil, Nat.zero_add]
  have h32 := shaAnswers_eq (sha384512Family32_computes modified) hjoin
    (fun H M => result32_eq hsize) calls c
  have h64 := shaAnswers_eq sha384512_computes (Eq.refl H0')
    (fun H M => result_eq (b := 8) rfl (by decide) hsize rfl rfl) calls c'
  rw [answers_limit calls _ h0 (Nat.lt_trans h0 (show 2 ^ 96 < 2 ^ 64 * 2 ^ 64 by decide))] at h32
  exact h32.trans h64.symm

/-- Built with arithmetic of 32 bits, and with either form of the macros, the file gives the same
answers to each list of calls whose input stays below `2 ^ 96` bits. -/
theorem sha384512_branches_agree (modified : Bool) {calls : List ShaCall}
    (h : 8 * (calls.map ShaCall.octetCount).sum < 2 ^ 96)
    (c : ShaContext (Vector (BitVec 32) 16) ShaLength4 128) (c' : Sha512Context) :
    (shaAnswers (sha384512Family32 modified) sha384H032 48 calls c).1
        = (shaAnswers sha384512Family sha384H0 48 calls c').1 ∧
      (shaAnswers (sha384512Family32 modified) sha512H032 64 calls c).1
        = (shaAnswers sha384512Family sha512H0 64 calls c').1 :=
  ⟨branches_agree modified sha384H032_eq (by decide) h c c',
    branches_agree modified sha512H032_eq (by decide) h c c'⟩

theorem sha384512_branches_agree_abc :
    (shaAnswers (sha384512Family32 true) sha384H032 48 [.input [0x61, 0x62, 0x63], .result]
        ⟨.replicate _ 0, ⟨0, 0, 0, 0⟩, 0, .replicate _ 0, false, 0⟩).1
        = (shaAnswers sha384512Family sha384H0 48 [.input [0x61, 0x62, 0x63], .result]
          (zeroContext .sha384)).1 ∧
      (shaAnswers (sha384512Family32 true) sha512H032 64 [.input [0x61, 0x62, 0x63], .result]
        ⟨.replicate _ 0, ⟨0, 0, 0, 0⟩, 0, .replicate _ 0, false, 0⟩).1
        = (shaAnswers sha384512Family sha512H0 64 [.input [0x61, 0x62, 0x63], .result]
          (zeroContext .sha384)).1 :=
  sha384512_branches_agree true (by decide) _ _

end YkPers
