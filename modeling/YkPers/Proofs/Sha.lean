import YkPers.ShaSession

/-!
# The functions of a family hash what they are given

A context that absorbs holds the compression of the whole blocks, and the bytes behind them at the
front of `Message_Block` (`Absorbs`). Padding fills the block once or twice (`shaPadMessage_ok`).
With that each call does what the call of a session does, and `shaCall_refines` is the rule for
any list of calls.
-/

namespace YkPers

open BlockHash
open ShaCode (shaSuccess shaNull shaStateError)

variable {η ℓ σ : Type} {n : ℕ}

/-! ## Filling a block -/

section Storage

variable {c : ShaContext η ℓ n} {bs : List UInt8}

theorem prefix_set {block : Vector UInt8 n} (h : bs <+: block.toList) (hi : bs.length < n)
    (b : UInt8) : bs ++ [b] <+: (block.set bs.length b hi).toList := by
  obtain ⟨t, ht⟩ := h
  have hlen : (bs ++ t).length = n := by rw [ht, Vector.length_toList]
  rw [Vector.toList_set, ← ht, List.set_append_right _ _ (Nat.le_refl _), Nat.sub_self]
  rcases t with _ | ⟨x, t⟩
  · rw [List.append_nil] at hlen
    omega
  · exact ⟨t, by rw [List.set_cons_zero, List.append_assoc, List.singleton_append]⟩

theorem storeOctet_ok (h : bs <+: c.messageBlock.toList) (hi : c.messageBlockIndex = bs.length)
    (hn : bs.length < n) (b : UInt8) :
    ∃ block, storeOctet b c = (.ok ⟨⟩, { c with
      messageBlock := block
      messageBlockIndex := (bs ++ [b]).length }) ∧ bs ++ [b] <+: block.toList := by
  refine ⟨c.messageBlock.set bs.length b hn, ?_, prefix_set h hn b⟩
  simp only [storeOctet, hi, hn, dif_pos, List.length_append, List.length_singleton]

theorem storeZeros_ok : ∀ (k : ℕ) {c : ShaContext η ℓ n} {bs : List UInt8},
    bs <+: c.messageBlock.toList → c.messageBlockIndex = bs.length → bs.length + k ≤ n →
      ∃ block, storeZeros k c = (.ok ⟨⟩, { c with
        messageBlock := block
        messageBlockIndex := (bs ++ List.replicate k 0).length }) ∧
          bs ++ List.replicate k 0 <+: block.toList
  | 0, c, bs, h, hi, _ => by
    refine ⟨c.messageBlock, ?_, by rwa [List.replicate_zero, List.append_nil]⟩
    rw [List.replicate_zero, List.append_nil, ← hi]
    rfl
  | k + 1, c, bs, h, hi, hn => by
    obtain ⟨block, hstore, h1⟩ := storeOctet_ok h hi (by omega) 0
    obtain ⟨block', hzeros, h2⟩ := storeZeros_ok k
      (c := { c with messageBlock := block, messageBlockIndex := (bs ++ [0]).length }) h1 rfl
      (by rw [List.length_append, List.length_singleton]; omega)
    rw [List.append_assoc, List.singleton_append, ← List.replicate_succ] at hzeros h2
    refine ⟨block', ?_, h2⟩
    rw [storeZeros, Proc.bind_ok hstore, hzeros]

theorem fillZeros_ok {limit : ℕ} (h : bs <+: c.messageBlock.toList)
    (hi : c.messageBlockIndex = bs.length) (hle : bs.length ≤ limit) (hn : limit ≤ n) :
    ∃ block, fillZeros limit c
        = (.ok ⟨⟩, { c with messageBlock := block, messageBlockIndex := limit }) ∧
      bs ++ List.replicate (limit - bs.length) 0 <+: block.toList := by
  obtain ⟨block, hrun, hpre⟩ := storeZeros_ok (limit - bs.length) h hi (by omega)
  have hlen : (bs ++ List.replicate (limit - bs.length) 0).length = limit := by
    rw [List.length_append, List.length_replicate]
    omega
  refine ⟨block, ?_, hpre⟩
  rw [fillZeros, Proc.get_bind_run, hi, hrun, hlen]

theorem storeOctetsAt_ok : ∀ (octets : List UInt8) {c : ShaContext η ℓ n} {bs : List UInt8},
    bs <+: c.messageBlock.toList → bs.length + octets.length ≤ n →
      ∃ block, storeOctetsAt bs.length octets c = (.ok ⟨⟩, { c with messageBlock := block }) ∧
        bs ++ octets <+: block.toList
  | [], c, bs, h, _ => ⟨c.messageBlock, rfl, by rwa [List.append_nil]⟩
  | b :: octets, c, bs, h, hn => by
    rw [List.length_cons] at hn
    have hlt : bs.length < n := by omega
    obtain ⟨block, hrun, hpre⟩ := storeOctetsAt_ok octets
      (c := { c with messageBlock := c.messageBlock.set bs.length b hlt }) (prefix_set h hlt b)
      (by rw [List.length_append, List.length_singleton]; omega)
    rw [List.append_assoc, List.singleton_append] at hpre
    rw [List.length_append, List.length_singleton] at hrun
    refine ⟨block, ?_, hpre⟩
    rw [storeOctetsAt]
    simp only [hlt, dif_pos]
    exact hrun

end Storage

/-! ## What a family computes -/

/-- Seen as `view`, a family takes `compress` over its blocks; `value` is a length, and one of
`limit` bits is too long. -/
structure ShaFamily.Computes (F : ShaFamily η ℓ n) (view : η → σ)
    (compress : σ → List UInt8 → σ) (value : ℓ → ℕ) (limit : ℕ) : Prop where
  process : ∀ H block, block.length = n →
    view (F.processMessageBlock H block) = compress (view H) block
  noLength : value F.noLength = 0
  addLength : ∀ l m, 0 < m → m ≤ 8 → value l + m < limit →
    value (F.addLength l m).1 = value l + m ∧ (F.addLength l m).2 = false
  tooLong : ∀ l, value l + 8 = limit → (F.addLength l 8).2 = true
  lengthOctets : ∀ l, F.lengthOctets l = beBytes F.lengthSize (value l)
  lengthSize_lt : F.lengthSize < n
  dvd_limit : 8 ∣ limit
  limit_pos : 0 < limit

section Family

variable {F : ShaFamily η ℓ n} {view : η → σ} {compress : σ → List UInt8 → σ} {value : ℓ → ℕ}
  {limit : ℕ} {c : ShaContext η ℓ n}

/-- The zeros behind the byte that ends a message, with `i` bytes in the block. -/
def padZeros (n L i : ℕ) : ℕ := if n - L ≤ i then n - 1 - i + (n - L) else n - L - 1 - i

theorem padZeros_spec {L m : ℕ} (hL : L < n) :
    padZeros n L (m % n) < n ∧ (m + 1 + padZeros n L (m % n) + L) % n = 0 := by
  have hm := Nat.div_add_mod m n
  have hlt := Nat.mod_lt m (Nat.lt_of_le_of_lt (Nat.zero_le L) hL)
  generalize m % n = i at hm hlt
  rw [padZeros]
  split_ifs with hi
  · refine ⟨by omega, ?_⟩
    rw [show m + 1 + (n - 1 - i + (n - L)) + L = n * (m / n + 2) by rw [Nat.mul_add]; omega]
    exact Nat.mul_mod_right n _
  · refine ⟨by omega, ?_⟩
    rw [show m + 1 + (n - L - 1 - i) + L = n * (m / n + 1) by rw [Nat.mul_add]; omega]
    exact Nat.mul_mod_right n _

theorem shaProcessMessageBlock_run (hF : F.Computes view compress value limit) :
    ∃ H, shaProcessMessageBlock F c
        = (.ok ⟨⟩, { c with intermediateHash := H, messageBlockIndex := 0 }) ∧
      view H = compress (view c.intermediateHash) c.messageBlock.toList :=
  ⟨_, rfl, hF.process _ _ c.messageBlock.length_toList⟩

/-- The last block: what is in it up to the length, then the length. -/
theorem padLast_ok (hF : F.Computes view compress value limit) {bs : List UInt8}
    (h : bs <+: c.messageBlock.toList) (hi : c.messageBlockIndex = bs.length)
    (hn : bs.length ≤ n - F.lengthSize) (l : ℓ) :
    ∃ H block, (do
        fillZeros (n - F.lengthSize)
        storeOctetsAt (n - F.lengthSize) (F.lengthOctets l)
        shaProcessMessageBlock F) c = (.ok ⟨⟩, { c with
          intermediateHash := H
          messageBlock := block
          messageBlockIndex := 0 }) ∧
      view H = compress (view c.intermediateHash)
        (bs ++ List.replicate (n - F.lengthSize - bs.length) 0 ++ F.lengthOctets l) := by
  have hL := hF.lengthSize_lt
  have hsize : (F.lengthOctets l).length = F.lengthSize := by
    rw [hF.lengthOctets, length_beBytes]
  have hlen : (bs ++ List.replicate (n - F.lengthSize - bs.length) 0).length
      = n - F.lengthSize := by
    rw [List.length_append, List.length_replicate]
    omega
  obtain ⟨block, hfill, h1⟩ := fillZeros_ok h hi hn (Nat.sub_le n _)
  obtain ⟨block', hstore, h2⟩ := storeOctetsAt_ok (F.lengthOctets l)
    (c := { c with messageBlock := block, messageBlockIndex := n - F.lengthSize }) h1
    (by rw [hlen, hsize]; omega)
  obtain ⟨H, hprocess, hview⟩ := shaProcessMessageBlock_run
    (c := { c with messageBlock := block', messageBlockIndex := n - F.lengthSize }) hF
  rw [hlen] at hstore
  have hfull := h2.eq_of_length (by
    rw [Vector.length_toList, List.length_append, hlen, hsize]
    omega)
  refine ⟨H, block', ?_, by rw [hview, hfull]⟩
  rw [Proc.bind_ok hfill, Proc.bind_ok hstore, hprocess]

theorem shaPadMessage_ok (hF : F.Computes view compress value limit) {bs : List UInt8}
    (h : bs <+: c.messageBlock.toList) (hi : c.messageBlockIndex = bs.length) (hn : bs.length < n)
    (padByte : UInt8) :
    ∃ H block, shaPadMessage F padByte c = (.ok ⟨⟩, { c with
        intermediateHash := H
        messageBlock := block
        messageBlockIndex := 0 }) ∧
      view H = blockFold n compress (view c.intermediateHash)
        (bs ++ padByte :: List.replicate (padZeros n F.lengthSize bs.length) 0
          ++ F.lengthOctets c.length) := by
  have hL := hF.lengthSize_lt
  have hsize : (F.lengthOctets c.length).length = F.lengthSize := by
    rw [hF.lengthOctets, length_beBytes]
  have hpos : 0 < n := Nat.lt_of_le_of_lt (Nat.zero_le _) hn
  obtain ⟨block, hstore, h1⟩ := storeOctet_ok h hi hn padByte
  rw [shaPadMessage, Proc.get_bind_run, hi, padZeros]
  split_ifs with hfull
  · have hle : (bs ++ [padByte]).length ≤ n := by
      rw [List.length_append, List.length_singleton]
      omega
    obtain ⟨block₁, hfill, h2⟩ := fillZeros_ok
      (c := { c with messageBlock := block, messageBlockIndex := (bs ++ [padByte]).length }) h1 rfl
      hle (Nat.le_refl n)
    obtain ⟨H₁, hprocess, hview⟩ := shaProcessMessageBlock_run
      (c := { c with messageBlock := block₁, messageBlockIndex := n }) hF
    obtain ⟨H, block', hlast, hview'⟩ := padLast_ok
      (c := { c with intermediateHash := H₁, messageBlock := block₁, messageBlockIndex := 0 }) hF
      List.nil_prefix rfl (Nat.zero_le _) c.length
    have hfirst : block₁.toList
        = bs ++ padByte :: List.replicate (n - 1 - bs.length) 0 := by
      rw [List.append_assoc, List.singleton_append, List.length_append, List.length_singleton,
        show n - (bs.length + 1) = n - 1 - bs.length by omega] at h2
      refine (h2.eq_of_length ?_).symm
      rw [Vector.length_toList, List.length_append, List.length_cons, List.length_replicate]
      omega
    refine ⟨H, block', ?_, ?_⟩
    · rw [Proc.bind_ok hstore, Proc.bind_ok hfill, Proc.bind_ok hprocess]
      exact hlast
    · have hone : (bs ++ padByte :: List.replicate (n - 1 - bs.length) 0).length = n := by
        rw [List.length_append, List.length_cons, List.length_replicate]
        omega
      have htwo : (List.replicate (n - F.lengthSize) 0 ++ F.lengthOctets c.length).length = n := by
        rw [List.length_append, List.length_replicate, hsize]
        omega
      rw [hview', List.nil_append, List.length_nil, Nat.sub_zero, hview, hfirst, List.replicate_add,
        ← List.cons_append, ← List.append_assoc, List.append_assoc (bs ++ _),
        blockFold_mul_append hpos (hone.trans (Nat.one_mul n).symm),
        blockFold_of_length hpos hone, blockFold_of_length hpos htwo]
  · have hle : (bs ++ [padByte]).length ≤ n - F.lengthSize := by
      rw [List.length_append, List.length_singleton]
      omega
    obtain ⟨H, block', hlast, hview⟩ := padLast_ok
      (c := { c with messageBlock := block, messageBlockIndex := (bs ++ [padByte]).length })
      hF h1 rfl hle c.length
    refine ⟨H, block', ?_, ?_⟩
    · rw [Proc.bind_ok hstore]
      exact hlast
    · rw [hview, List.append_assoc bs, List.singleton_append, List.length_append,
        List.length_singleton, show n - F.lengthSize - (bs.length + 1)
          = n - F.lengthSize - 1 - bs.length by omega, blockFold_of_length hpos]
      rw [List.length_append, hsize, List.length_append, List.length_cons, List.length_replicate]
      omega

/-! ## Absorbing -/

variable (view compress value) in
/-- A context that was given `message` after its start at `H0`, and counts `k` bits more. -/
structure Absorbs (H0 : σ) (message : List UInt8) (k : ℕ) (c : ShaContext η ℓ n) : Prop where
  computed : c.computed = false
  corrupted : c.corrupted = 0
  length : value c.length = 8 * message.length + k
  hash : view c.intermediateHash = blockFold n compress H0 message
  index : c.messageBlockIndex = (rest n message).length
  block : rest n message <+: c.messageBlock.toList

variable {H0 : σ} {message : List UInt8}

theorem ShaFamily.Computes.rest_lt (hF : F.Computes view compress value limit)
    (message : List UInt8) : (rest n message).length < n := by
  rw [length_rest]
  exact Nat.mod_lt _ (Nat.lt_of_le_of_lt (Nat.zero_le _) hF.lengthSize_lt)

/-- The last bits of a message, and the one behind them. -/
theorem byteBits_padByte {k : ℕ} (hk : k < 8) (b : UInt8) :
    byteBits ((b &&& shaMasks.getD k 0) ||| shaMarkbit.getD k 0)
      = firstBits b k ++ true :: List.replicate (7 - k) false := by
  have htables : ∀ k < 8,
      byteBits (shaMasks.getD k 0) = List.replicate k true ++ List.replicate (8 - k) false ∧
      byteBits (shaMarkbit.getD k 0)
        = List.replicate k false ++ true :: List.replicate (7 - k) false := by decide
  obtain ⟨hmask, hmark⟩ := htables k hk
  rw [byteBits_or, byteBits_and, hmask, hmark, firstBits, byteBits_eq]
  generalize b.toNat = m
  match k, hk with
  | 0, _ | 1, _ | 2, _ | 3, _ | 4, _ | 5, _ | 6, _ | 7, _ => simp [List.replicate]

variable (n F compress H0) in
/-- The value behind the padded message. -/
def finalHash (M : List Bool) : σ :=
  blockFold n compress H0 (pack (pad (8 * n) (8 * F.lengthSize) M))

theorem shaFinalize_ok (hF : F.Computes view compress value limit) {k : ℕ} (hk : k < 8)
    (h : Absorbs view compress value H0 message k c) {padByte last : UInt8}
    (hp : byteBits padByte = firstBits last k ++ true :: List.replicate (7 - k) false) :
    ∃ c', shaFinalize F padByte c = (.ok ⟨⟩, c') ∧ c'.computed = true ∧ c'.corrupted = 0 ∧
      view c'.intermediateHash = finalHash n F compress H0 (bits message ++ firstBits last k) := by
  obtain ⟨H, block, hpad, hview⟩ := shaPadMessage_ok hF h.block h.index (hF.rest_lt message) padByte
  have hz := padZeros_spec (m := message.length) hF.lengthSize_lt
  rw [← length_rest] at hz
  refine ⟨{ c with
    intermediateHash := H
    messageBlock := Vector.replicate n 0
    messageBlockIndex := 0
    length := F.noLength
    computed := true }, ?_, rfl, h.corrupted, ?_⟩
  · rw [shaFinalize, Proc.bind_ok hpad, Proc.modify_run]
  · rw [finalHash, firstBits, pad_bits hk hp hz.2 hz.1, pack_bits, ← h.length, ← hF.lengthOctets,
      List.append_assoc, blockFold_append (Nat.lt_of_le_of_lt (Nat.zero_le _) hF.lengthSize_lt),
      ← h.hash, ← List.append_assoc]
    exact hview

/-! ## Calls -/

variable (F view compress value limit H0) in
/-- The context that a session is kept in. -/
def Represents : ShaSession → ShaContext η ℓ n → Prop
  | .absorbing message, c =>
    Absorbs view compress value H0 message 0 c ∧ 8 * message.length < limit
  | .finished M, c => c.computed = true ∧ c.corrupted = 0 ∧
    view c.intermediateHash = finalHash n F compress H0 M
  | .corrupted code, c => c.corrupted = code ∧ code ≠ 0 ∧
    (c.computed = true → code = shaStateError.toNat)

theorem shaInputLoop_corrupted (h : c.corrupted ≠ 0) :
    ∀ octets : List UInt8, shaInputLoop F octets c = (.ok ⟨⟩, c)
  | [] => rfl
  | octet :: octets => by rw [shaInputLoop, Proc.get_bind_run, if_pos h, Proc.pure_run]

/-- A turn of the loop for which there is room in the length. -/
theorem absorbs_octet (hF : F.Computes view compress value limit) (octet : UInt8)
    (h : Absorbs view compress value H0 message 0 c) (hroom : 8 * (message.length + 1) < limit) :
    ∃ c', (∀ loop : Proc (ShaContext η ℓ n) Unit, (do
        storeOctet octet
        shaAddLength F 8
        let c ← Proc.get
        if c.corrupted = 0 ∧ c.messageBlockIndex = n then shaProcessMessageBlock F else pure ⟨⟩
        loop) c = loop c') ∧
      Absorbs view compress value H0 (message ++ [octet]) 0 c' := by
  have hpos : 0 < n := Nat.lt_of_le_of_lt (Nat.zero_le _) hF.lengthSize_lt
  have hlen := h.length
  obtain ⟨block, hstore, hpre⟩ := storeOctet_ok h.block h.index (hF.rest_lt message) octet
  obtain ⟨hadd, hflag⟩ := hF.addLength c.length 8 (by decide) (Nat.le_refl 8) (by omega)
  have hnew : (message ++ [octet]).length = message.length + 1 := List.length_append
  have hrest := rest_append hpos message [octet]
  have hfold := blockFold_append (f := compress) (s := H0) hpos message [octet]
  have hle : (rest n message ++ [octet]).length ≤ n := by
    rw [List.length_append, List.length_singleton]
    exact hF.rest_lt message
  rcases Nat.lt_or_eq_of_le hle with hpart | hfull
  · rw [rest_of_lt hpart] at hrest
    rw [blockFold_of_lt hpart] at hfold
    refine ⟨{ c with
      messageBlock := block
      messageBlockIndex := (rest n message ++ [octet]).length
      length := (F.addLength c.length 8).1
      corrupted := 0 }, fun loop => ?_, h.computed, rfl, by dsimp only; omega,
      h.hash.trans hfold.symm, by rw [hrest], by rwa [hrest]⟩
    rw [Proc.bind_ok hstore, shaAddLength, Proc.modify_bind_run, Proc.get_bind_run, hflag]
    exact congrFun (if_neg fun hc => Nat.ne_of_lt hpart hc.2) _
  · have hnone : rest n (message ++ [octet]) = [] := by
      rw [hrest, ← List.append_nil (rest n message ++ [octet]),
        rest_mul_append hpos (hfull.trans (Nat.one_mul n).symm), rest_of_lt hpos]
    rw [blockFold_of_length hpos hfull] at hfold
    obtain ⟨H, hprocess, hview⟩ := shaProcessMessageBlock_run (c := { c with
      messageBlock := block
      messageBlockIndex := (rest n message ++ [octet]).length
      length := (F.addLength c.length 8).1
      corrupted := 0 }) hF
    refine ⟨{ c with
      intermediateHash := H
      messageBlock := block
      messageBlockIndex := 0
      length := (F.addLength c.length 8).1
      corrupted := 0 }, fun loop => ?_, h.computed, rfl, by dsimp only; omega, ?_,
      by rw [hnone]; rfl, by rw [hnone]; exact List.nil_prefix⟩
    · rw [Proc.bind_ok hstore, shaAddLength, Proc.modify_bind_run, Proc.get_bind_run, hflag]
      exact (congrFun (if_pos ⟨rfl, hfull⟩) _).trans (Proc.bind_ok hprocess)
    · rw [hview, hfold, ← h.hash, hpre.eq_of_length (by rw [hfull, Vector.length_toList])]

theorem shaInputLoop_ok (hF : F.Computes view compress value limit) :
    ∀ (octets : List UInt8) {message : List UInt8} {c : ShaContext η ℓ n},
      Absorbs view compress value H0 message 0 c → 8 * message.length < limit →
        ∃ c', shaInputLoop F octets c = (.ok ⟨⟩, c') ∧
          Represents F view compress value limit H0
            (if 8 * (message.length + octets.length) < limit then .absorbing (message ++ octets)
              else .corrupted shaNull.toNat) c'
  | [], message, c, h, hlt => by
    refine ⟨c, rfl, ?_⟩
    rw [List.length_nil, Nat.add_zero, if_pos hlt, List.append_nil]
    exact ⟨h, hlt⟩
  | octet :: octets, message, c, h, hlt => by
    have hnew : (message ++ [octet]).length = message.length + 1 := List.length_append
    have hpos : 0 < n := Nat.lt_of_le_of_lt (Nat.zero_le _) hF.lengthSize_lt
    rw [shaInputLoop, Proc.get_bind_run, if_neg (not_not.2 h.corrupted), List.length_cons]
    rcases Nat.lt_or_ge (8 * (message.length + 1)) limit with hroom | hover
    · obtain ⟨c₁, hbody, h₁⟩ := absorbs_octet hF octet h hroom
      obtain ⟨c₂, hloop, h₂⟩ := shaInputLoop_ok hF octets h₁ (by omega)
      refine ⟨c₂, ?_, ?_⟩
      · exact (hbody _).trans hloop
      · rwa [hnew, Nat.add_right_comm, List.append_assoc] at h₂
    · obtain ⟨block, hstore, -⟩ := storeOctet_ok h.block h.index (hF.rest_lt message) octet
      have hflag : (F.addLength c.length 8).2 = true := by
        refine hF.tooLong _ ?_
        have hdvd := hF.dvd_limit
        rw [h.length]
        omega
      rw [if_neg (by omega), Proc.bind_ok hstore, shaAddLength, Proc.modify_bind_run,
        Proc.get_bind_run, hflag]
      refine ⟨_, (congrFun (if_neg fun hc => Nat.one_ne_zero hc.1) _).trans
        (shaInputLoop_corrupted Nat.one_ne_zero octets), rfl, Nat.one_ne_zero, fun hc => ?_⟩
      exact absurd (h.computed.symm.trans hc) Bool.false_ne_true

theorem shaInput_ok (hF : F.Computes view compress value limit) {s : ShaSession}
    (h : Represents F view compress value limit H0 s c) {octets : List UInt8}
    (hne : octets.length ≠ 0) :
    ∃ c', shaInput F octets c = (.ok (s.input limit octets).1, c') ∧
      Represents F view compress value limit H0 (s.input limit octets).2 c' := by
  rw [shaInput, Proc.get_bind_run, if_neg hne]
  match s, h with
  | .absorbing message, ⟨h, hlt⟩ =>
    obtain ⟨c', hloop, h'⟩ := shaInputLoop_ok hF octets h hlt
    rw [if_neg (by rw [h.computed]; exact Bool.false_ne_true), if_neg (not_not.2 h.corrupted)]
    exact ⟨c', Proc.bind_ok hloop, h'⟩
  | .finished M, ⟨hcomp, _, _⟩ =>
    rw [if_pos hcomp]
    exact ⟨_, rfl, rfl, Nat.succ_ne_zero _, fun _ => rfl⟩
  | .corrupted code, ⟨hcode, hne, hcomp⟩ =>
    by_cases hc : c.computed
    · rw [if_pos hc]
      obtain rfl := hcomp hc
      exact ⟨_, rfl, rfl, hne, fun _ => rfl⟩
    · rw [if_neg hc, if_pos (by rwa [hcode]), hcode]
      exact ⟨c, rfl, hcode, hne, hcomp⟩

theorem shaFinalBits_ok (hF : F.Computes view compress value limit) {s : ShaSession}
    (h : Represents F view compress value limit H0 s c) {messageBits : UInt8} {length : ℕ}
    (hne : length ≠ 0) :
    ∃ c', shaFinalBits F messageBits length c = (.ok (s.finalBits messageBits length).1, c') ∧
      Represents F view compress value limit H0 (s.finalBits messageBits length).2 c' := by
  rw [shaFinalBits, Proc.get_bind_run, if_neg hne]
  match s, h with
  | .absorbing message, ⟨h, hlt⟩ =>
    by_cases hlen : length < 8
    · rw [if_neg (by rw [h.computed]; simpa using hlen), if_neg (not_not.2 h.corrupted),
        shaAddLength, Proc.modify_bind_run, ShaSession.finalBits, if_pos hlen]
      have hroom : 8 * message.length + length < limit := by
        obtain ⟨k, rfl⟩ := hF.dvd_limit
        omega
      have hlength := h.length
      obtain ⟨hadd, hflag⟩ := hF.addLength c.length length (Nat.pos_of_ne_zero hne)
        (Nat.le_of_lt hlen) (by omega)
      obtain ⟨c', hfin, hdone⟩ := shaFinalize_ok hF hlen
        (c := { c with
          length := (F.addLength c.length length).1
          corrupted := if (F.addLength c.length length).2 then 1 else 0 })
        ⟨h.computed, by rw [hflag]; rfl, by dsimp only; omega, h.hash, h.index, h.block⟩
        (byteBits_padByte hlen messageBits)
      exact ⟨c', Proc.bind_ok hfin, hdone⟩
    · rw [if_pos (.inr (Nat.not_lt.1 hlen)), ShaSession.finalBits, if_neg hlen]
      exact ⟨_, rfl, rfl, Nat.succ_ne_zero _, fun _ => rfl⟩
  | .finished M, ⟨hcomp, _, _⟩ =>
    rw [if_pos (.inl hcomp)]
    exact ⟨_, rfl, rfl, Nat.succ_ne_zero _, fun _ => rfl⟩
  | .corrupted code, ⟨hcode, hcne, hcomp⟩ =>
    rw [ShaSession.finalBits]
    by_cases hc : c.computed = true ∨ 8 ≤ length
    · rw [if_pos hc]
      have hthree : code = shaStateError.toNat ∨ ¬ length < 8 := hc.imp hcomp Nat.not_lt.2
      split_ifs with hlen
      · obtain rfl := hthree.resolve_right (not_not.2 hlen)
        exact ⟨_, rfl, rfl, hcne, fun _ => rfl⟩
      · exact ⟨_, rfl, rfl, Nat.succ_ne_zero _, fun _ => rfl⟩
    · rw [if_neg hc, if_pos (by rwa [hcode]), if_pos (Nat.not_le.1 fun h8 => hc (.inr h8)), hcode]
      exact ⟨c, rfl, hcode, hcne, hcomp⟩

theorem shaResultN_ok (hF : F.Computes view compress value limit) {s : ShaSession}
    (h : Represents F view compress value limit H0 s c) {hash : List Bool → List UInt8}
    {hashSize : ℕ} (hhash : ∀ H M, view H = finalHash n F compress H0 M →
      (List.range hashSize).map (F.resultOctet H) = hash M) :
    ∃ c', shaResultN F hashSize c = (.ok (s.result hash).1, c') ∧
      Represents F view compress value limit H0 (s.result hash).2 c' := by
  have hout : ∀ {c : ShaContext η ℓ n} {M : List Bool},
      view c.intermediateHash = finalHash n F compress H0 M → (do
        let c ← Proc.get
        pure (shaSuccess.toNat, (List.range hashSize).map (F.resultOctet c.intermediateHash)) :
        Proc (ShaContext η ℓ n) _) c = (.ok (shaSuccess.toNat, hash M), c) := fun hview => by
    rw [Proc.get_bind_run, hhash _ _ hview, Proc.pure_run]
  rw [shaResultN, Proc.get_bind_run]
  match s, h with
  | .absorbing message, ⟨h, _⟩ =>
    obtain ⟨c', hfin, hcomp, hcorr, hview⟩ := shaFinalize_ok hF (Nat.zero_lt_succ 7) h
      (show byteBits 0x80 = firstBits 0 0 ++ true :: List.replicate (7 - 0) false from rfl)
    rw [firstBits, List.take_zero, List.append_nil] at hview
    rw [if_neg (not_not.2 h.corrupted), if_neg (by rw [h.computed]; exact Bool.false_ne_true)]
    exact ⟨c', (Proc.bind_ok hfin).trans (hout hview), hcomp, hcorr, hview⟩
  | .finished M, ⟨hcomp, hcorr, hview⟩ =>
    rw [if_neg (not_not.2 hcorr), if_pos hcomp]
    exact ⟨c, hout hview, hcomp, hcorr, hview⟩
  | .corrupted code, ⟨hcode, hne, hcomp⟩ =>
    rw [if_pos (by rwa [hcode]), hcode]
    exact ⟨c, rfl, hcode, hne, hcomp⟩

/-- A context does what the session does that it is kept in, call by call. -/
theorem shaCall_refines (hF : F.Computes view compress value limit)
    {hash : List Bool → List UInt8} {hashSize : ℕ}
    (hhash : ∀ H M, view H = finalHash n F compress H0 M →
      (List.range hashSize).map (F.resultOctet H) = hash M) :
    Session.Refines (ShaSession.step hash limit) (shaCall F hashSize)
      (Represents F view compress value limit H0) := by
  intro s c call h
  match call with
  | .input octets =>
    rw [shaCall, ShaSession.step]
    split_ifs with hzero
    · have hrun : shaInput F octets c = (.ok shaSuccess.toNat, c) := by
        rw [shaInput, Proc.get_bind_run, if_pos hzero, Proc.pure_run]
      exact ⟨c, Proc.bind_ok hrun, h⟩
    · obtain ⟨c', hrun, h'⟩ := shaInput_ok hF h hzero
      exact ⟨c', Proc.bind_ok hrun, h'⟩
  | .finalBits messageBits length =>
    rw [shaCall, ShaSession.step]
    split_ifs with hzero
    · have hrun : shaFinalBits F messageBits length c = (.ok shaSuccess.toNat, c) := by
        rw [shaFinalBits, Proc.get_bind_run, if_pos hzero, Proc.pure_run]
      exact ⟨c, Proc.bind_ok hrun, h⟩
    · obtain ⟨c', hrun, h'⟩ := shaFinalBits_ok hF h hzero
      exact ⟨c', Proc.bind_ok hrun, h'⟩
  | .result => exact shaResultN_ok hF h hhash

end Family

end YkPers
