import YkPers.Proofs.Response

/-!
# What a response does to the caller's buffer

Every access to the buffer of `yk_read_response_from_key` is inside it, but for three kinds of
answers (`Overreads`): a response for a buffer that cannot hold its first part, one that ends
before the buffer holds the bytes under the checksum, and one larger than any buffer. The
capabilities that the key sends are taken at the length it declares, received or not
(`Overclaims`).
-/

namespace YkPers

variable {σ : Type} {H : Host σ} {slot : UInt8} {flags bufsize expectBytes : UInt32} {w : World σ}

/-! ## Accesses outside of the buffer -/

/-- From `d`, the key starts a response for a buffer of less than 7 bytes. Or with room left, it
ends the response with more bytes to check than the buffer has, or goes on with a part that has
room only by the wrap of `bytes_read + 8`. -/
def Overreads (H : Host σ) (flags : UInt32) (N expectBytes : ℕ) (d : σ) : Prop :=
  ∃ idle r₀ d₀, Streams H flags d idle r₀ [] d₀ ∧
    (N < 7 ∨ ∃ rs t d', (∀ r ∈ rs, isData r = true) ∧ H.Serves d₀ (rs ++ [t]) d'
      ∧ room N (r₀ :: rs).length
      ∧ (isLast t = true ∧ 0 < expectBytes ∧ N < u32 (expectBytes + 2)
        ∨ isData t = true ∧ N < 7 * (r₀ :: rs).length + 7))

theorem readResponseLoop_overread (fuel : ℕ) {N expectBytes : ℕ} {qs : List Report} {t : Report}
    {d : σ} (hroom : room N qs.length) (hread : H.ykusbRead w.dev = (.ok t, d))
    (ht : isLast t = true) (hpos : 0 < expectBytes) (hlong : N < u32 (expectBytes + 2)) :
    readResponseLoop H N expectBytes (fuel + 1) (7 * qs.length) (image N qs) w
      = (.fault, consumed w [t] d) := by
  have hload : (loadBytes (image N qs) (u32 (expectBytes + 2)) : Yk σ _) (consumed w [t] d)
      = (.fault, consumed w [t] d) := by
    rw [loadBytes, length_image (Nat.le_of_lt hroom.1), if_neg (by omega), Proc.fault_run]
  have hverify : verifyResponse H expectBytes (7 * qs.length) (image N qs) (consumed w [t] d)
      = (.fault, consumed w [t] d) := by
    unfold verifyResponse
    rw [if_pos hpos]
    exact Proc.bind_fault hload
  rw [readResponseLoop_last hroom hread ht]
  exact Proc.bind_fault hverify

theorem ykReadResponseFromKey_fault_of_overreads (slot : UInt8)
    (h : Overreads H flags bufsize.toNat expectBytes.toNat w.dev) :
    (ykReadResponseFromKey H slot flags bufsize expectBytes w).1 = .fault := by
  obtain ⟨idle, r₀, d₀, hstart, h⟩ := h
  by_cases h7 : bufsize.toNat < 7
  · obtain ⟨e, -, hwait⟩ := wait_of_streams slot hstart
    rw [ykReadResponseFromKey_small h7 hwait]
  obtain ⟨rs, t, d', hdata, hserve, hroom, ht⟩ := h.resolve_left h7
  obtain ⟨e, hrs, e', hread, -⟩ := Backend.serves_append.1 hserve
  obtain ⟨fuel, hrun⟩ := ykReadResponseFromKey_reaches slot expectBytes (by omega)
    (hstart.continue hdata hrs) (.inl hroom.1)
  have hread : H.ykusbRead (received w idle r₀ rs e).dev = (.ok t, e') := hread
  rw [hrun]
  rcases ht with ⟨hlast, hpos, hlong⟩ | ⟨hnext, hlong⟩
  · rw [readResponseLoop_overread fuel hroom hread hlast hpos hlong]
  · rw [readResponseLoop_overrun hroom hread hnext hlong]

theorem overreads_of_fault
    (h : (ykReadResponseFromKey H slot flags bufsize expectBytes w).1 = .fault) :
    Overreads H flags bufsize.toNat expectBytes.toNat w.dev := by
  rcases (ykWaitForKeyStatus_terminates H slot flags true respPendingFlag (m := 1000) (by decide)
    w).cases with ⟨r₀, w₁, hwait⟩ | ⟨w₁, hwait⟩
  swap
  · rw [ykReadResponseFromKey, Proc.bind_fail hwait] at h
    cases h
  obtain ⟨idle, hstart, -⟩ := streams_of_wait hwait
  refine ⟨idle, r₀, w₁.dev, hstart, ?_⟩
  rcases Nat.lt_or_ge bufsize.toNat 7 with h7 | h7
  · exact .inl h7
  obtain ⟨rs, d, res, w', hdata, hserve, -, hexit, hrun⟩ :=
    ykReadResponseFromKey_exits_of_streams slot expectBytes h7 hstart
  obtain rfl : res = .fault := by rw [hrun] at h; exact h
  have hnext : ∀ {t : Report} {e : σ}, H.ykusbRead (received w idle r₀ rs d).dev = (.ok t, e) →
      H.Serves w₁.dev (rs ++ [t]) e := fun hread =>
    Backend.serves_append.2 ⟨d, hserve, _, hread, rfl⟩
  cases hexit with
  | overread hroom hread ht hv hlong =>
    have hpos : 0 < expectBytes.toNat := Nat.pos_of_ne_zero fun h0 => hv (.inl h0)
    exact .inr ⟨rs, _, _, hdata, hnext hread, hroom, .inl ⟨ht, hpos, hlong⟩⟩
  | overrun hroom hread ht hlong =>
    exact .inr ⟨rs, _, _, hdata, hnext hread, hroom, .inr ⟨ht, hlong⟩⟩

theorem ykReadResponseFromKey_in_bounds_iff (slot : UInt8) (w : World σ) :
    (ykReadResponseFromKey H slot flags bufsize expectBytes w).1 ≠ .fault
      ↔ ¬ Overreads H flags bufsize.toNat expectBytes.toNat w.dev :=
  not_congr ⟨overreads_of_fault, ykReadResponseFromKey_fault_of_overreads slot⟩

/-- A command that writes, reads a response, and then stays inside its buffer. -/
theorem write_response_in_bounds_iff {α : Type} {ykCmd : UInt8} {buf : List UInt8} {n : ℕ}
    (hn : n < 2 ^ 32) (hbuf : n ≤ buf.length) {f : List UInt8 × ℕ → Yk σ α}
    (hf : ∀ a u, (f a u).1 ≠ .fault) (w : World σ) :
    ((ykWriteToKey H ykCmd buf (Int32.ofNat n) >>= fun _ =>
        ykReadResponseFromKey H slot flags bufsize expectBytes >>= f) w).1 ≠ .fault
      ↔ ∀ w₁, ykWriteToKey H ykCmd buf (Int32.ofNat n) w = (.ok (), w₁) →
        ¬ Overreads H flags bufsize.toNat expectBytes.toNat w₁.dev := by
  rcases ykWriteToKey_returns (H := H) ykCmd hn hbuf w with ⟨w₁, hwrite⟩ | ⟨w₁, hwrite⟩
  swap
  · rw [Proc.bind_fail hwrite]
    simp [hwrite]
  have hall : (∀ w₂, ykWriteToKey H ykCmd buf (Int32.ofNat n) w = (.ok (), w₂) →
      ¬ Overreads H flags bufsize.toNat expectBytes.toNat w₂.dev)
        ↔ ¬ Overreads H flags bufsize.toNat expectBytes.toNat w₁.dev := by
    simp [hwrite]
  rw [Proc.bind_ok hwrite, hall, ← ykReadResponseFromKey_in_bounds_iff slot]
  rcases hread : ykReadResponseFromKey H slot flags bufsize expectBytes w₁ with ⟨r, w₂⟩
  cases r with
  | ok a =>
    rw [Proc.bind_ok hread]
    simp [hf]
  | fail => simp [Proc.bind_fail hread]
  | fault => simp [Proc.bind_fault hread]
  | diverge => simp [Proc.bind_diverge hread]

/-- Reading a response, on its own or for a challenge or the capabilities, stays inside the
caller's buffer if and only if the key does not answer with more than the caller asked for. -/
theorem responses_in_bounds_iff (H : Host σ) (w : World σ) :
    (∀ (slot : UInt8) (flags bufsize expectBytes : UInt32),
      (ykReadResponseFromKey H slot flags bufsize expectBytes w).1 ≠ .fault
        ↔ ¬ Overreads H flags bufsize.toNat expectBytes.toNat w.dev)
      ∧ (∀ (ykCmd : UInt8) (mayBlock : Bool) (challengeLen responseLen : UInt32)
          (challenge : List UInt8), challengeLen.toNat ≤ challenge.length →
        ((ykChallengeResponse H ykCmd mayBlock challengeLen challenge responseLen w).1 ≠ .fault
          ↔ ∀ n, chalRespBytes ykCmd = some n → ∀ w₁,
            ykWriteToKey H ykCmd challenge (Int32.ofNat challengeLen.toNat) w = (.ok (), w₁) →
              ¬ Overreads H (if mayBlock then ykFlagMayblock else 0) responseLen.toNat n.toNat
                w₁.dev))
      ∧ ∀ (slot : UInt8) (flags len : UInt32) (capabilities : List UInt8),
        (ykGetCapabilities H slot flags capabilities len w).1 ≠ .fault
          ↔ ∀ w₁, ykWriteToKey H slotYk4Capabilities capabilities 0 w = (.ok (), w₁) →
            ¬ Overreads H flags len.toNat 0 w₁.dev := by
  refine ⟨fun slot flags bufsize expectBytes => ykReadResponseFromKey_in_bounds_iff slot w,
    fun ykCmd mayBlock challengeLen responseLen challenge hchal => ?_,
    fun slot flags len capabilities => ?_⟩
  · unfold ykChallengeResponse
    rcases chalRespBytes ykCmd with _ | n
    · simp
    · rw [write_response_in_bounds_iff challengeLen.toNat_lt hchal (by simp)]
      simp
  · refine write_response_in_bounds_iff (n := 0) (by decide) (Nat.zero_le _) (fun a u => ?_) w
    dsimp only
    split_ifs <;> simp

open ScriptedKey in
theorem responses_in_bounds_iff_hmac :
    let w := session (List.replicate 3 (statusReport 0) ++ responseReports (List.replicate 20 7)
      ++ [statusReport 0x40])
    (ykChallengeResponse (host .little crc16) slotChalHmac1 false 3 [1, 2, 3] 64 w).1 ≠ .fault
      ↔ ∀ n, chalRespBytes slotChalHmac1 = some n → ∀ w₁,
        ykWriteToKey (host .little crc16) slotChalHmac1 [1, 2, 3] (Int32.ofNat (3 : UInt32).toNat)
            w = (.ok (), w₁) →
          ¬ Overreads (host .little crc16) 0 (64 : UInt32).toNat n.toNat w₁.dev := by
  intro w
  exact (responses_in_bounds_iff (host .little crc16) w).2.1 slotChalHmac1 false 3 64 [1, 2, 3]
    (by decide)

open ScriptedKey in
/-- A buffer of 6 bytes is written past its end by the first part. For a challenge with a buffer
of 16 bytes, a response that ends behind its first part is checked over 22 bytes. -/
theorem responses_out_of_bounds :
    (ykReadResponseFromKey (host .little crc16) 0 0 6 0 (session [statusReport 0x40])).1 = .fault
      ∧ (ykChallengeResponse (host .little crc16) slotChalHmac1 false 0 [] 16
        (session (List.replicate 3 (statusReport 0) ++ [statusReport 0x40, statusReport 0x40]))).1
          = .fault := by
  decide +kernel

/-! ## The length of the capabilities -/

/-- From `d`, the key answers with the first report of a response, more data reports, and the end
of the response, with room left in the buffer. -/
def Responds (H : Host σ) (flags : UInt32) (N : ℕ) (d : σ) (r₀ : Report) (rs : List Report) :
    Prop :=
  ∃ idle d' last d'', Streams H flags d idle r₀ rs d' ∧ H.ykusbRead d' = (.ok last, d'')
    ∧ isLast last = true ∧ room N (r₀ :: rs).length

/-- The size of the capabilities by their own first byte. -/
def declaredLen (r₀ : Report) : ℕ := (r₀.data.getD 0 0).toNat + 1

section Capabilities

variable {r₀ : Report} {rs : List Report}

/-- A response of unknown size is taken as it comes. -/
theorem ykReadResponseFromKey_of_responds (slot : UInt8)
    (h : Responds H flags bufsize.toNat w.dev r₀ rs) :
    ∃ w', ykReadResponseFromKey H slot flags bufsize 0 w
      = (.ok (image bufsize.toNat (r₀ :: rs), 7 * (r₀ :: rs).length), w') := by
  obtain ⟨idle, d', last, d'', hstream, hread, hlast, hroom⟩ := h
  have h7 : 7 ≤ bufsize.toNat := by
    have := hroom.1
    rw [List.length_cons] at this
    omega
  obtain ⟨fuel, hrun⟩ := ykReadResponseFromKey_reaches slot 0 h7 hstream (.inl hroom.1)
  exact ⟨_, hrun.trans (readResponseLoop_accepted (w := received w idle r₀ rs d') hroom hread hlast
    (.inl rfl))⟩

theorem responds_of_ok (h7 : 7 ≤ bufsize.toNat) {a : List UInt8 × ℕ} {w' : World σ}
    (h : ykReadResponseFromKey H slot flags bufsize 0 w = (.ok a, w')) :
    ∃ r₀ rs, Responds H flags bufsize.toNat w.dev r₀ rs := by
  rcases ykReadResponseFromKey_exits H slot flags 0 h7 w with
    ⟨w₁, -, hrun⟩ | ⟨idle, r₀, rs, d, res, w₁, hstream, -, hexit, hrun⟩
  · rw [hrun] at h
    cases h
  · obtain ⟨rfl, rfl⟩ := Prod.mk.inj (hrun.symm.trans h)
    cases hexit with
    | accepted hroom hread ht _ => exact ⟨r₀, rs, idle, d, _, _, hstream, hread, ht, hroom⟩

theorem declaredLen_image (N : ℕ) :
    ((image N (r₀ :: rs)).getD 0 0).toNat + 1 = declaredLen r₀ := by
  have hpos : 0 < r₀.data.length := by simp
  rw [declaredLen, image, contents, List.flatMap_cons, List.append_assoc,
    List.getD_eq_getElem?_getD, List.getElem?_append_left hpos, List.getD_eq_getElem?_getD]

variable {len : UInt32} {capabilities : List UInt8} {w₁ : World σ}

/-- Only the size of the buffer bounds the length that the key declares. -/
theorem ykGetCapabilities_of_responds (slot : UInt8)
    (hwrite : ykWriteToKey H slotYk4Capabilities capabilities 0 w = (.ok (), w₁))
    (h : Responds H flags len.toNat w₁.dev r₀ rs) :
    ∃ w', ykGetCapabilities H slot flags capabilities len w
      = if len.toNat < declaredLen r₀ then (.fail, { w' with ykErrno := some .EWRONGSIZ })
        else (.ok (image len.toNat (r₀ :: rs), declaredLen r₀), w') := by
  obtain ⟨w', hread⟩ := ykReadResponseFromKey_of_responds slot h
  refine ⟨w', ?_⟩
  rw [ykGetCapabilities, Proc.bind_ok hwrite, Proc.bind_ok hread]
  dsimp only
  rw [declaredLen_image]
  split_ifs <;> rfl

theorem responds_of_capabilities (h7 : 7 ≤ len.toNat) {a : List UInt8 × ℕ} {w' : World σ}
    (h : ykGetCapabilities H slot flags capabilities len w = (.ok a, w')) :
    ∃ w₁ r₀ rs, ykWriteToKey H slotYk4Capabilities capabilities 0 w = (.ok (), w₁)
      ∧ Responds H flags len.toNat w₁.dev r₀ rs := by
  obtain ⟨_, w₁, hwrite, h⟩ := Proc.bind_eq_ok.1 h
  obtain ⟨_, w₂, hread, -⟩ := Proc.bind_eq_ok.1 h
  obtain ⟨r₀, rs, hr⟩ := responds_of_ok h7 hread
  exact ⟨w₁, r₀, rs, hwrite, hr⟩

end Capabilities

/-- The key ends its response before the bytes that it declares, and the buffer has room for
them. -/
def Overclaims (H : Host σ) (flags : UInt32) (capabilities : List UInt8) (N : ℕ) (w : World σ) :
    Prop :=
  ∃ w₁ r₀ rs, ykWriteToKey H slotYk4Capabilities capabilities 0 w = (.ok (), w₁)
    ∧ Responds H flags N w₁.dev r₀ rs
    ∧ (contents (r₀ :: rs)).length < declaredLen r₀ ∧ declaredLen r₀ ≤ N

/-- Capabilities are bytes of the key's response, and refused where the response does not have
them, if and only if the key does not declare more than it sends and the buffer holds. -/
theorem capabilities_received_iff (H : Host σ) (slot : UInt8) (flags : UInt32) {len : UInt32}
    (h8 : 8 ≤ len.toNat) (capabilities : List UInt8) (w : World σ) :
    let run := ykGetCapabilities H slot flags capabilities len w
    ((∀ buf n w', run = (.ok (buf, n), w') →
        ∃ w₁ r₀ rs, ykWriteToKey H slotYk4Capabilities capabilities 0 w = (.ok (), w₁)
          ∧ Responds H flags len.toNat w₁.dev r₀ rs
          ∧ n ≤ (contents (r₀ :: rs)).length ∧ buf.take n = (contents (r₀ :: rs)).take n)
      ∧ ∀ w₁ r₀ rs, ykWriteToKey H slotYk4Capabilities capabilities 0 w = (.ok (), w₁) →
          Responds H flags len.toNat w₁.dev r₀ rs →
          (contents (r₀ :: rs)).length < declaredLen r₀ →
          ∃ w', run = (.fail, w') ∧ w'.ykErrno = some .EWRONGSIZ)
      ↔ ¬ Overclaims H flags capabilities len.toNat w := by
  intro run
  constructor
  · rintro ⟨-, h⟩ ⟨w₁, r₀, rs, hwrite, hr, hlong, hle⟩
    obtain ⟨w', hfail, -⟩ := h w₁ r₀ rs hwrite hr hlong
    obtain ⟨w'', hok⟩ := ykGetCapabilities_of_responds slot hwrite hr
    rw [if_neg (Nat.not_lt.2 hle)] at hok
    exact absurd (hok.symm.trans hfail) (by simp)
  intro h
  have hdeclared : ∀ {w₁ r₀ rs},
      ykWriteToKey H slotYk4Capabilities capabilities 0 w = (.ok (), w₁) →
      Responds H flags len.toNat w₁.dev r₀ rs → (contents (r₀ :: rs)).length < declaredLen r₀ →
      len.toNat < declaredLen r₀ := fun hwrite hr hlong =>
    Nat.lt_of_not_le fun hle => h ⟨_, _, _, hwrite, hr, hlong, hle⟩
  refine ⟨fun buf n w' hrun => ?_, fun w₁ r₀ rs hwrite hr hlong => ?_⟩
  · obtain ⟨w₁, r₀, rs, hwrite, hr⟩ := responds_of_capabilities (by omega) hrun
    obtain ⟨w'', hok⟩ := ykGetCapabilities_of_responds slot hwrite hr
    replace hok := hrun.symm.trans hok
    split_ifs at hok with hlong
    · simp at hok
    simp only [Prod.mk.injEq, Ret.ok.injEq] at hok
    obtain ⟨⟨rfl, rfl⟩, -⟩ := hok
    have hle : declaredLen r₀ ≤ (contents (r₀ :: rs)).length :=
      Nat.le_of_not_lt fun hlt => hlong (hdeclared hwrite hr hlt)
    exact ⟨w₁, r₀, rs, hwrite, hr, hle, List.take_append_of_le_length hle⟩
  · obtain ⟨w'', hok⟩ := ykGetCapabilities_of_responds slot hwrite hr
    rw [if_pos (hdeclared hwrite hr hlong)] at hok
    exact ⟨_, hok, rfl⟩

section Sessions

open ScriptedKey

/-- A key that takes the request and answers with one report of capabilities. -/
def capable (size : UInt8) : World ScriptedKey :=
  session (List.replicate 3 (statusReport 0) ++
    [Report.ofBytes [size, 1, 2, 3, 4, 5, 6, 0x40], statusReport 0x40])

theorem capabilities_received_iff_whole :
    let run := ykGetCapabilities (host .little crc16) 0 0 [] 64 (capable 6)
    ((∀ buf n w', run = (.ok (buf, n), w') →
        ∃ w₁ r₀ rs, ykWriteToKey (host .little crc16) slotYk4Capabilities [] 0 (capable 6)
            = (.ok (), w₁)
          ∧ Responds (host .little crc16) 0 (64 : UInt32).toNat w₁.dev r₀ rs
          ∧ n ≤ (contents (r₀ :: rs)).length ∧ buf.take n = (contents (r₀ :: rs)).take n)
      ∧ ∀ w₁ r₀ rs, ykWriteToKey (host .little crc16) slotYk4Capabilities [] 0 (capable 6)
            = (.ok (), w₁) →
          Responds (host .little crc16) 0 (64 : UInt32).toNat w₁.dev r₀ rs →
          (contents (r₀ :: rs)).length < declaredLen r₀ →
          ∃ w', run = (.fail, w') ∧ w'.ykErrno = some .EWRONGSIZ)
      ↔ ¬ Overclaims (host .little crc16) 0 [] (64 : UInt32).toNat (capable 6) :=
  capabilities_received_iff (host .little crc16) 0 0 (by decide) [] (capable 6)

/-- A response of 7 bytes that declares 21: the call returns 1 with a length of 21. -/
theorem capabilities_overclaimed :
    (ykGetCapabilities (host .little crc16) 0 0 [] 64 (capable 20)).1
        = .ok ([20, 1, 2, 3, 4, 5, 6] ++ List.replicate 57 0, 21)
      ∧ (reads (events (ykGetCapabilities (host .little crc16) 0 0 [] 64) (capable 20))).countP
        isPending = 2 := by
  decide +kernel

end Sessions

end YkPers
