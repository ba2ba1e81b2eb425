import YkPers.Proofs.Usha

/-!
# HMAC is the keyed hash of the text

Under a context of HMAC there is a session of a hash that was given the inner pad first (`Under`).
`hmac_answers` is about every list of calls, and `hmac_eq` about the text in one piece.
-/

namespace YkPers

open BlockHash (bits innerPad outerPad hmacKey)
open ShaCode (shaSuccess)

/-! ## Sizes -/

theorem ShaVersion.le_limit (v : ShaVersion) : 2 ^ 64 ≤ v.limit := by
  cases v <;> simp [ShaVersion.limit]

theorem ushaBlockSize_le (v : ShaVersion) : ushaBlockSize v ≤ 128 := by
  cases v <;> decide

theorem ushaHashSize_le (v : ShaVersion) : ushaHashSize v ≤ ushaBlockSize v := by
  cases v <;> decide

namespace ShaVersion

/-- The pads of the keyed hash. -/
noncomputable def ipad (v : ShaVersion) (key : List UInt8) : List UInt8 :=
  innerPad v.hash (ushaBlockSize v) key

noncomputable def opad (v : ShaVersion) (key : List UInt8) : List UInt8 :=
  outerPad v.hash (ushaBlockSize v) key

variable (v : ShaVersion) (key : List UInt8)

theorem length_hmacKey : (hmacKey v.hash (ushaBlockSize v) key).length = ushaBlockSize v := by
  have hk : (if ushaBlockSize v < key.length then v.hash (bits key) else key).length
      ≤ ushaBlockSize v := by
    split
    · rw [v.length_hash]
      exact ushaHashSize_le v
    · omega
  rw [hmacKey, List.length_append, List.length_replicate]
  omega

theorem length_ipad : (v.ipad key).length = ushaBlockSize v := by
  rw [ipad, innerPad, List.length_map, v.length_hmacKey]

theorem length_opad : (v.opad key).length = ushaBlockSize v := by
  rw [opad, outerPad, List.length_map, v.length_hmacKey]

end ShaVersion

/-! ## Calls of the hash below -/

section Usha

variable {v : ShaVersion} {s : ShaSession} {u : UshaContext}

theorem ushaResult_ok (h : UshaHolds ⟨v, s⟩ u) :
    ∃ u', ushaResult u = (.ok (s.result v.hash).1, u') ∧
      UshaHolds ⟨v, (s.result v.hash).2⟩ u' := by
  rw [ushaResult_eq]
  exact dispatch_step h .result

/-- An input to a message that stays short enough. -/
theorem ushaInput_absorbs {message : List UInt8} (octets : List UInt8)
    (h : UshaHolds ⟨v, .absorbing message⟩ u)
    (hlen : 8 * (message.length + octets.length) < v.limit) :
    ∃ u', ushaInput octets u = (.ok shaSuccess.toNat, u') ∧
      UshaHolds ⟨v, .absorbing (message ++ octets)⟩ u' := by
  obtain ⟨u', hrun, h'⟩ := code_step (ushaInput_eq octets) h
  by_cases h0 : octets.length = 0
  · obtain rfl : octets = [] := List.eq_nil_of_length_eq_zero h0
    rw [List.append_nil]
    exact ⟨u', hrun, h'⟩
  · simp only [ShaSession.step, if_neg h0, ShaSession.input, if_pos hlen] at hrun h'
    exact ⟨u', hrun, h'⟩

end Usha

/-! ## Sequences that stop at a code -/

section Codes

variable {S : Type} {c c' c'' : S}

theorem orCode_ok {x y : Proc S ℕ} (hx : x c = (.ok shaSuccess.toNat, c'))
    (hy : y c' = (.ok shaSuccess.toNat, c'')) : orCode x y c = (.ok shaSuccess.toNat, c'') := by
  rw [orCode, Proc.bind_ok hx]
  exact Proc.bind_ok hy

theorem orDigest_ok {x : Proc S ℕ} {y : Proc S (ℕ × List UInt8)} {digest : List UInt8}
    (hx : x c = (.ok shaSuccess.toNat, c')) (hy : y c' = (.ok (shaSuccess.toNat, digest), c'')) :
    orDigest x y c = (.ok (shaSuccess.toNat, digest), c'') := by
  rw [orDigest, Proc.bind_ok hx]
  exact Proc.bind_ok hy

end Codes

theorem takeUnsigned_of_nonneg {length : ℤ} (h0 : 0 ≤ length) (h : length < 2 ^ 31)
    (bytes : List UInt8) : takeUnsigned bytes length = bytes.take length.toNat := by
  rw [takeUnsigned, Int.emod_eq_of_lt h0 (by omega)]

theorem takeUnsigned_length {bytes : List UInt8} (h : bytes.length < 2 ^ 31) :
    takeUnsigned bytes bytes.length = bytes := by
  rw [takeUnsigned_of_nonneg (by omega) (by omega), Int.toNat_natCast, List.take_length]

/-! ## The key -/

section Key

variable (M : Stale) (v : ShaVersion) {key : List UInt8} {keyLen : ℤ}

variable (key) in
theorem hmacHashKey_ok (h0 : 0 ≤ keyLen) (hlt : keyLen < 2 ^ 31) (u : UshaContext) :
    ∃ u', hmacHashKey M v key keyLen u
      = (.ok (shaSuccess.toNat, v.hash (bits (key.take keyLen.toNat))), u') := by
  obtain ⟨u₁, hreset, h₁⟩ := ushaReset_ok M.recast v u
  obtain ⟨u₂, hinput, h₂⟩ := ushaInput_absorbs (key.take keyLen.toNat) h₁ (by
    have := v.le_limit
    have := List.length_take_le keyLen.toNat key
    rw [List.length_nil]
    omega)
  obtain ⟨u₃, hresult, -⟩ := ushaResult_ok h₂
  refine ⟨u₃, ?_⟩
  rw [hmacHashKey, takeUnsigned_of_nonneg h0 hlt]
  exact orDigest_ok (orCode_ok hreset hinput) hresult

theorem hmacPad_eq (blockSize : ℕ) (hle : keyLen.toNat ≤ key.length) (pad : UInt8) :
    hmacPad blockSize key keyLen pad
      = (key.take keyLen.toNat ++ List.replicate (blockSize - (key.take keyLen.toNat).length) 0).map
        (· ^^^ pad) := by
  rw [hmacPad, List.map_append, List.map_replicate, UInt8.zero_xor, List.length_take,
    Nat.min_eq_left hle]

end Key

/-! ## Contexts of HMAC -/

/-- The session of the hash under one of HMAC. -/
inductive Under (v : ShaVersion) (key : List UInt8) : HmacSession → ShaSession → Prop where
  | absorbing (text : List UInt8) : Under v key (.absorbing text) (.absorbing (v.ipad key ++ text))
  | finished (text : List Bool) :
    Under v key (.finished text) (.finished (bits (v.ipad key) ++ text))
  | answered (message : List Bool) : Under v key (.answered (v.hash message)) (.finished message)
  | corrupted {code : ℕ} (h : code ≠ 0) : Under v key (.corrupted code) (.corrupted code)

structure HmacHolds (v : ShaVersion) (key : List UInt8) (s : HmacSession) (c : HmacContext) :
    Prop where
  whichSha : c.whichSha = v
  hashSize : c.hashSize = ushaHashSize v
  blockSize : c.blockSize = ushaBlockSize v
  kOpad : c.kOpad = v.opad key
  under : ∃ u, Under v key s u ∧ UshaHolds ⟨v, u⟩ c.shaContext

theorem onSha_run {α : Type} {x : Proc UshaContext α} {c : HmacContext} {r : Ret α}
    {u : UshaContext} (h : x c.shaContext = (r, u)) :
    onSha x c = (r, { c with shaContext := u }) := by
  rw [onSha, Proc.zoom_run, h]

section Context

variable {M : Stale} {v : ShaVersion} {key : List UInt8} {c : HmacContext}

theorem hmacStart_ok {k : List UInt8} {kLen : ℤ} (hpad : ∀ p : UInt8,
      hmacPad (ushaBlockSize v) k kLen p = (hmacKey v.hash (ushaBlockSize v) key).map (· ^^^ p))
    (hsha : c.whichSha = v) (hhash : c.hashSize = ushaHashSize v)
    (hblock : c.blockSize = ushaBlockSize v) :
    ∃ c', hmacStart M v k kLen c = (.ok shaSuccess.toNat, c') ∧
      HmacHolds v key (.absorbing []) c' := by
  obtain ⟨u₁, hreset, h₁⟩ := ushaReset_ok M.recast v c.shaContext
  obtain ⟨u₂, hinput, h₂⟩ := ushaInput_absorbs (v.ipad key) h₁ (by
    have := v.le_limit
    have := ushaBlockSize_le v
    rw [v.length_ipad, List.length_nil]
    omega)
  refine ⟨{ c with kOpad := v.opad key, shaContext := u₂ }, ?_, hsha, hhash, hblock, rfl, _,
    .absorbing [], ?_⟩
  · rw [hmacStart, Proc.modify_bind_run, hpad, hpad]
    exact orCode_ok (onSha_run (c := { c with kOpad := v.opad key }) hreset) (onSha_run hinput)
  · rw [List.append_nil]
    exact h₂

/-- A key that is longer than a block is hashed first, and one of a negative length is empty. -/
theorem hmacReset_ok (M : Stale) (v : ShaVersion) {key : List UInt8} {keyLen : ℤ}
    (hlt : keyLen < 2 ^ 31) (hle : keyLen.toNat ≤ key.length) (c : HmacContext) :
    ∃ c', hmacReset M v key keyLen c = (.ok shaSuccess.toNat, c') ∧
      HmacHolds v (key.take keyLen.toNat) (.absorbing []) c' := by
  have hlen : (key.take keyLen.toNat).length = keyLen.toNat := by
    rw [List.length_take, Nat.min_eq_left hle]
  rw [hmacReset, Proc.modify_bind_run]
  by_cases hlong : (ushaBlockSize v : ℤ) < keyLen
  · obtain ⟨u, hrun⟩ := hmacHashKey_ok M v key (by omega) hlt M.tctx
    rw [if_pos hlong, Proc.bind_ok (congrArg (fun r => (r.1, _)) hrun), if_neg (not_not.2 rfl)]
    refine hmacStart_ok (fun p => ?_) rfl rfl rfl
    rw [hmacPad_eq _ (by rw [Int.toNat_natCast, v.length_hash]), hmacKey,
      if_pos (by omega), Int.toNat_natCast,
      List.take_of_length_le (Nat.le_of_eq (v.length_hash _))]
  · rw [if_neg hlong]
    refine hmacStart_ok (fun p => ?_) rfl rfl rfl
    rw [hmacPad_eq _ hle, hmacKey, if_neg (by omega)]

/-- The second pass, over the digest of the first one. -/
theorem outer_ok (hsha : c.whichSha = v) (hhash : c.hashSize = ushaHashSize v)
    (hblock : c.blockSize = ushaBlockSize v) (hopad : c.kOpad = v.opad key) {digest : List UInt8}
    (hdigest : digest.length = ushaHashSize v) :
    ∃ c', orDigest (orCode (orCode (onSha (ushaReset M.recast c.whichSha))
        (onSha (ushaInput (c.kOpad.take c.blockSize))))
        (onSha (ushaInput (digest.take c.hashSize)))) (onSha ushaResult) c
        = (.ok (shaSuccess.toNat, v.hash (bits (v.opad key ++ digest))), c') ∧
      HmacHolds v key (.answered (v.hash (bits (v.opad key ++ digest)))) c' := by
  rw [hopad, hblock, hhash, hsha, List.take_of_length_le (v.length_opad key).le,
    List.take_of_length_le hdigest.le]
  have hlimit := v.le_limit
  have hle := ushaBlockSize_le v
  have hle' := ushaHashSize_le v
  have hlen := v.length_opad key
  obtain ⟨u₁, hreset, h₁⟩ := ushaReset_ok M.recast v c.shaContext
  obtain ⟨u₂, hpad, h₂⟩ := ushaInput_absorbs (v.opad key) h₁ (by
    rw [List.length_nil]
    omega)
  obtain ⟨u₃, hinput, h₃⟩ := ushaInput_absorbs digest h₂ (by
    rw [List.nil_append]
    omega)
  obtain ⟨u₄, hresult, h₄⟩ := ushaResult_ok h₃
  refine ⟨{ c with shaContext := u₄ }, ?_, hsha, hhash, hblock, hopad, _,
    .answered (bits (v.opad key ++ digest)), h₄⟩
  exact orDigest_ok (orCode_ok (orCode_ok (onSha_run hreset) (onSha_run hpad)) (onSha_run hinput))
    (onSha_run hresult)

end Context

/-! ## Calls -/

section Calls

variable {v : ShaVersion} {key : List UInt8}

theorem under_input {s : HmacSession} {u : ShaSession} (h : Under v key s u) (text : List UInt8) :
    (u.input v.limit text).1 = (s.input (ushaBlockSize v) v.limit text).1 ∧
      Under v key (s.input (ushaBlockSize v) v.limit text).2 (u.input v.limit text).2 := by
  cases h with
  | absorbing before =>
    refine ⟨rfl, ?_⟩
    rw [HmacSession.input, ShaSession.input, List.length_append, v.length_ipad, List.append_assoc]
    split
    · exact .absorbing (before ++ text)
    · exact .corrupted (by decide)
  | finished before => exact ⟨rfl, .corrupted (by decide)⟩
  | answered message => exact ⟨rfl, .corrupted (by decide)⟩
  | corrupted hcode => exact ⟨rfl, .corrupted hcode⟩

theorem under_finalBits {s : HmacSession} {u : ShaSession} (h : Under v key s u)
    (messageBits : UInt8) (length : ℕ) :
    (u.finalBits messageBits length).1 = (s.finalBits messageBits length).1 ∧
      Under v key (s.finalBits messageBits length).2 (u.finalBits messageBits length).2 := by
  cases h with
  | absorbing text =>
    rw [HmacSession.finalBits, ShaSession.finalBits, BlockHash.bits_append, List.append_assoc]
    split
    · exact ⟨rfl, .finished _⟩
    · exact ⟨rfl, .corrupted (by decide)⟩
  | finished text => exact ⟨rfl, .corrupted (by decide)⟩
  | answered message => exact ⟨rfl, .corrupted (by decide)⟩
  | corrupted hcode =>
    rw [HmacSession.finalBits, ShaSession.finalBits]
    split
    · exact ⟨rfl, .corrupted hcode⟩
    · exact ⟨rfl, .corrupted (by decide)⟩

variable {M : Stale} {s : HmacSession} {c : HmacContext}

/-- A call that is one of the hash below. -/
theorem onSha_code {x : Proc UshaContext ℕ} {code : ℕ} {s' : HmacSession} {u' : ShaSession}
    (h : HmacHolds v key s c)
    (hrun : ∃ sha, x c.shaContext = (.ok code, sha) ∧ UshaHolds ⟨v, u'⟩ sha)
    (hunder : Under v key s' u') : ∃ c', (do
      let code ← onSha x
      pure (code, ([] : List UInt8))) c = (.ok (code, []), c') ∧ HmacHolds v key s' c' := by
  obtain ⟨sha, hx, hsha⟩ := hrun
  exact ⟨{ c with shaContext := sha }, Proc.bind_ok (onSha_run hx),
    h.whichSha, h.hashSize, h.blockSize, h.kOpad, u', hunder, hsha⟩

theorem hmacInput_refines (h : HmacHolds v key s c) (text : IntBytes) :
    ∃ c', hmacCall M (.input text) c
        = (.ok (s.step v.hash (ushaBlockSize v) v.limit key (.input text)).1, c') ∧
      HmacHolds v key (s.step v.hash (ushaBlockSize v) v.limit key (.input text)).2 c' := by
  obtain ⟨u, hunder, hsha⟩ := h.under
  have hrun := code_step (ushaInput_eq text) hsha
  rw [hmacCall, hmacInput, takeUnsigned_length text.2]
  rw [ShaSession.step] at hrun
  rw [HmacSession.step]
  by_cases h0 : text.1.length = 0
  · simp only [if_pos h0] at hrun ⊢
    exact onSha_code h hrun hunder
  · simp only [if_neg h0] at hrun ⊢
    obtain ⟨hcode, hunder'⟩ := under_input hunder text.1
    rw [hcode] at hrun
    exact onSha_code h hrun hunder'

theorem hmacFinalBits_refines (h : HmacHolds v key s c) (messageBits : UInt8) (length : ℕ) :
    ∃ c', hmacCall M (.finalBits messageBits length) c = (.ok (s.step v.hash (ushaBlockSize v)
        v.limit key (.finalBits messageBits length)).1, c') ∧
      HmacHolds v key (s.step v.hash (ushaBlockSize v) v.limit key
        (.finalBits messageBits length)).2 c' := by
  obtain ⟨u, hunder, hsha⟩ := h.under
  have hrun := code_step (ushaFinalBits_eq messageBits length) hsha
  rw [hmacCall, hmacFinalBits]
  rw [ShaSession.step] at hrun
  rw [HmacSession.step]
  by_cases h0 : length = 0
  · simp only [if_pos h0] at hrun ⊢
    exact onSha_code h hrun hunder
  · simp only [if_neg h0] at hrun ⊢
    obtain ⟨hcode, hunder'⟩ := under_finalBits hunder messageBits length
    rw [hcode] at hrun
    exact onSha_code h hrun hunder'

/-- The first pass gives the digest of `message`. -/
theorem hmacResult_ok (h : HmacHolds v key s c) {message : List Bool} {u : UshaContext}
    (hrun : ushaResult c.shaContext = (.ok (shaSuccess.toNat, v.hash message), u)) :
    ∃ c', hmacResult M c
        = (.ok (shaSuccess.toNat, v.hash (bits (v.opad key ++ v.hash message))), c') ∧
      HmacHolds v key (.answered (v.hash (bits (v.opad key ++ v.hash message)))) c' := by
  obtain ⟨c', hout, h'⟩ := outer_ok (M := M) (c := { c with shaContext := u }) h.whichSha h.hashSize
    h.blockSize h.kOpad (v.length_hash message)
  refine ⟨c', ?_, h'⟩
  rw [hmacResult, Proc.bind_ok (onSha_run hrun)]
  exact (congrFun (if_neg (not_not.2 rfl)) _).trans hout

theorem hmacResult_refines (h : HmacHolds v key s c) :
    ∃ c', hmacResult M c = (.ok (s.result v.hash (ushaBlockSize v) key).1, c') ∧
      HmacHolds v key (s.result v.hash (ushaBlockSize v) key).2 c' := by
  obtain ⟨u, hunder, hsha⟩ := h.under
  obtain ⟨sha, hrun, hsha'⟩ := ushaResult_ok hsha
  cases hunder with
  | absorbing text =>
    rw [ShaSession.result, BlockHash.bits_append] at hrun
    exact hmacResult_ok h hrun
  | finished text => exact hmacResult_ok h hrun
  | answered message => exact hmacResult_ok h hrun
  | corrupted hcode =>
    refine ⟨{ c with shaContext := sha }, ?_, h.whichSha, h.hashSize, h.blockSize, h.kOpad, _,
      .corrupted hcode, hsha'⟩
    rw [hmacResult, Proc.bind_ok (onSha_run hrun)]
    exact congrFun (if_pos hcode) _

end Calls

theorem hmacCall_refines (M : Stale) (v : ShaVersion) (key : List UInt8) :
    Session.Refines (HmacSession.step v.hash (ushaBlockSize v) v.limit key) (hmacCall M)
      (HmacHolds v key) := by
  intro s c call h
  cases call with
  | input text => exact hmacInput_refines h text
  | finalBits messageBits length => exact hmacFinalBits_refines h messageBits length
  | result => exact hmacResult_refines h

/-- Behind a reset, each list of calls returns the codes and the digests of a session of HMAC: the
first digest that is asked for is the keyed hash of the text. No call is a fault. -/
theorem hmac_answers (M : Stale) (v : ShaVersion) (key : IntBytes) (calls : List HmacCall)
    (c : HmacContext) :
    ((do
      let code ← hmacReset M v key key.1.length
      let answers ← Session.run (hmacCall M) calls
      pure (code, answers)) c).1 = .ok (shaSuccess.toNat, Session.answers
        (HmacSession.step v.hash (ushaBlockSize v) v.limit key) (.absorbing []) calls) := by
  have hkey := key.2
  obtain ⟨c₁, hreset, h₁⟩ := hmacReset_ok M v (show (key.1.length : ℤ) < 2 ^ 31 by omega)
    (show (key.1.length : ℤ).toNat ≤ key.1.length by omega) c
  rw [Int.toNat_natCast, List.take_length] at h₁
  obtain ⟨c₂, hrun, -⟩ := (hmacCall_refines M v key).run calls h₁
  rw [Proc.bind_ok hreset, Proc.bind_ok hrun]
  rfl

theorem hmac_run (M : Stale) (v : ShaVersion) (text : List UInt8) (textLen : ℤ) {key : List UInt8}
    {keyLen : ℤ} (hlt : keyLen < 2 ^ 31) (hle : keyLen.toNat ≤ key.length) :
    hmac M v text textLen key keyLen = .ok (shaSuccess.toNat, BlockHash.hmac v.hash
      (ushaBlockSize v) (key.take keyLen.toNat) (bits (takeUnsigned text textLen))) := by
  obtain ⟨c₁, hreset, h₁⟩ := hmacReset_ok M v hlt hle M.ctx
  obtain ⟨c₂, hinput, h₂⟩ : ∃ c₂, hmacInput text textLen c₁ = (.ok shaSuccess.toNat, c₂) ∧
      HmacHolds v (key.take keyLen.toNat) (.absorbing (takeUnsigned text textLen)) c₂ := by
    obtain ⟨u, hunder, hsha⟩ := h₁.under
    obtain ⟨⟩ := hunder
    have := v.le_limit
    have := ushaBlockSize_le v
    have htake := List.length_take_le (textLen % 2 ^ 32).toNat text
    obtain ⟨sha, hrun, hsha'⟩ := ushaInput_absorbs (takeUnsigned text textLen) hsha (by
      rw [List.append_nil, v.length_ipad, takeUnsigned]
      omega)
    refine ⟨{ c₁ with shaContext := sha }, onSha_run hrun, h₁.whichSha, h₁.hashSize, h₁.blockSize,
      h₁.kOpad, _, .absorbing _, ?_⟩
    rwa [List.append_nil] at hsha'
  obtain ⟨c₃, hresult, -⟩ := hmacResult_refines (M := M) h₂
  exact congrArg Prod.fst (orDigest_ok (orCode_ok hreset hinput) hresult)

/-- The one call of `hmac`, whatever its context holds before: a key of a negative length is empty,
and the length of the text is taken unsigned. Both are as long as their lengths say. -/
theorem hmac_eq (M : Stale) (v : ShaVersion) {text key : List UInt8} {textLen keyLen : ℤ}
    (htext : (textLen % 2 ^ 32).toNat ≤ text.length) (hlt : keyLen < 2 ^ 31)
    (hle : keyLen.toNat ≤ key.length) :
    (takeUnsigned text textLen).length = (textLen % 2 ^ 32).toNat ∧
      hmac M v text textLen key keyLen = .ok (shaSuccess.toNat, BlockHash.hmac v.hash
        (ushaBlockSize v) (key.take keyLen.toNat) (bits (takeUnsigned text textLen))) :=
  ⟨List.length_take_of_le htext, hmac_run M v text textLen hlt hle⟩

/-- Memory that is all zeros. -/
def zeroContext : (v : ShaVersion) → v.Context
  | .sha1 => ⟨.replicate _ 0, ⟨0, 0⟩, 0, .replicate _ 0, false, 0⟩
  | .sha224 => ⟨.replicate _ 0, ⟨0, 0⟩, 0, .replicate _ 0, false, 0⟩
  | .sha256 => ⟨.replicate _ 0, ⟨0, 0⟩, 0, .replicate _ 0, false, 0⟩
  | .sha384 => ⟨.replicate _ 0, ⟨0, 0⟩, 0, .replicate _ 0, false, 0⟩
  | .sha512 => ⟨.replicate _ 0, ⟨0, 0⟩, 0, .replicate _ 0, false, 0⟩

def zeroStale : Stale where
  recast _ := zeroContext
  tctx := ⟨.sha1, zeroContext .sha1⟩
  ctx := ⟨.sha1, 0, 0, ⟨.sha1, zeroContext .sha1⟩, []⟩

theorem hmac_eq_negative : (takeUnsigned [1, 2] 2).length = 2 ∧
    hmac zeroStale .sha256 [1, 2] 2 [3] (-1)
      = .ok (shaSuccess.toNat, BlockHash.hmac SecureHash.sha256 64 [] (bits [1, 2])) :=
  hmac_eq zeroStale .sha256 (by decide) (by decide) (by decide)

end YkPers
