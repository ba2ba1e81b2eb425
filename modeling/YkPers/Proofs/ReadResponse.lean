import YkPers.Proofs.Wait
import YkPers.Checksum
import YkPers.ScriptedKey

/-!
# Reading a response

The loop takes data reports, pending and with a sequence number other than 0, until it leaves by
one of seven exits (`Exit`). Which exit it takes, after which reports, and in which state it
leaves the session is settled by the key's answers (`readResponseLoop_exits`), so each result about
`yk_read_response_from_key` is a look at the exits.

The source compares `bytes_read + 8`, an `unsigned int`, with the size of the buffer. For a buffer
of nearly `2 ^ 32` bytes that sum wraps and the loop writes past the end (`Exit.overrun`).
-/

namespace YkPers

variable {σ : Type} {H : Host σ}

/-! ## What was received -/

/-- A report that carries the next part of the response. -/
def isData (r : Report) : Bool := isPending r && sequenceNumber r != 0

def isLast (r : Report) : Bool := isPending r && sequenceNumber r == 0

def contents (qs : List Report) : List UInt8 := qs.flatMap Report.data

/-- A buffer of `N` bytes with what the reports carry, and zeros after it. -/
def image (N : ℕ) (qs : List Report) : List UInt8 :=
  contents qs ++ List.replicate (N - 7 * qs.length) 0

def consumed (w : World σ) (rs : List Report) (d : σ) : World σ :=
  { w with dev := d, trace := w.trace ++ rs.map fun r => .read (some r) }

/-- After `m` reports the loop reads another one. -/
def room (N m : ℕ) : Prop := 7 * m < N ∧ u32 (7 * m + featureRptSize) ≤ N

/-- The response passes the checks at its end. -/
def Verified (H : Host σ) (N expectBytes : ℕ) (qs : List Report) : Prop :=
  expectBytes = 0 ∨ (u32 (expectBytes + 2) ≤ N
    ∧ H.yubikeyCrc16 ((image N qs).take (u32 (expectBytes + 2))) = ykCrcOkResidual
    ∧ 7 * qs.length = roundUp7 (u32 (expectBytes + 2)))

section Received

@[simp] theorem length_contents (qs : List Report) : (contents qs).length = 7 * qs.length := by
  induction qs with
  | nil => rfl
  | cons q qs ih =>
    rw [contents, List.flatMap_cons, List.length_append, Report.length_data, List.length_cons]
    unfold contents at ih
    omega

@[simp] theorem contents_singleton (q : Report) : contents [q] = q.data := by simp [contents]

theorem contents_append (qs rs : List Report) :
    contents (qs ++ rs) = contents qs ++ contents rs := List.flatMap_append

theorem length_image {N : ℕ} {qs : List Report} (h : 7 * qs.length ≤ N) :
    (image N qs).length = N := by
  rw [image, List.length_append, length_contents, List.length_replicate]
  omega

@[simp] theorem consumed_nil (w : World σ) : consumed w [] w.dev = w := by simp [consumed]

@[simp] theorem consumed_dev (w : World σ) (rs : List Report) (d : σ) :
    (consumed w rs d).dev = d := rfl

@[simp] theorem consumed_ykErrno (w : World σ) (rs : List Report) (d : σ) :
    (consumed w rs d).ykErrno = w.ykErrno := rfl

theorem consumed_consumed (w : World σ) (rs qs : List Report) (d e : σ) :
    consumed (consumed w rs d) qs e = consumed w (rs ++ qs) e := by
  simp [consumed]

@[simp] theorem reads_map_read (rs : List Report) :
    reads (rs.map fun r => .read (some r)) = rs := by
  induction rs with
  | nil => rfl
  | cons r rs ih => simp [ih]

@[simp] theorem writes_map_read (rs : List Report) :
    writes (rs.map fun r => .read (some r)) = [] := by
  induction rs with
  | nil => rfl
  | cons r rs ih => simp [ih]

theorem isData_iff {r : Report} :
    isData r = true ↔ isPending r = true ∧ sequenceNumber r ≠ 0 := by
  simp [isData]

theorem isLast_iff {r : Report} :
    isLast r = true ↔ isPending r = true ∧ sequenceNumber r = 0 := by
  simp [isLast]

/-- The source's test, before the first report or after one that fitted. -/
theorem room_iff {N m : ℕ} (h : 7 * m < N ∨ m = 1) :
    u32 (7 * m + featureRptSize) ≤ N ↔ room N m := by
  refine ⟨fun hu => ⟨?_, hu⟩, fun h => h.2⟩
  rcases h with h | rfl
  · exact h
  · have : u32 (7 * 1 + featureRptSize) = 15 := rfl
    omega

/-- Up to the wrap, a report for which there is room fits, and the buffer is not full then. -/
theorem fits_of_room {N m : ℕ} (hN : N < 2 ^ 32) (h : room N m) (hfit : 7 * m + 7 ≤ N) :
    7 * (m + 1) < N := by
  obtain ⟨-, h⟩ := h
  simp only [u32, featureRptSize] at h
  by_cases hlt : 7 * m + 8 < 2 ^ 32
  · rw [Nat.mod_eq_of_lt hlt] at h
    omega
  · omega

theorem room_of_lt {N m : ℕ} (hN : N < 2 ^ 32) (h : 7 * (m + 1) < N) : room N m := by
  have hu : u32 (7 * m + featureRptSize) = 7 * m + featureRptSize :=
    Nat.mod_eq_of_lt (by simp only [featureRptSize]; omega)
  refine ⟨by omega, ?_⟩
  rw [hu]
  simp only [featureRptSize]
  omega

theorem memcpy_image {N : ℕ} (qs : List Report) (q : Report) (h : 7 * qs.length + 7 ≤ N)
    (w : World σ) :
    (memcpy (image N qs) (7 * qs.length) q.data : Yk σ _) w = (.ok (image N (qs ++ [q])), w) := by
  have hlen : (image N qs).length = N := length_image (by omega)
  have hfit : 7 * qs.length + q.data.length ≤ (image N qs).length := by
    rw [hlen, Report.length_data]
    exact h
  have hleft : N - 7 * qs.length - 7 = N - 7 * (qs ++ [q]).length := by
    rw [List.length_append, List.length_singleton]
    omega
  have hstore := Buffer.store_replicate (contents qs) q.data (N - 7 * qs.length) 0
  rw [length_contents, Report.length_data, hleft] at hstore
  rw [memcpy, if_pos hfit, Proc.pure_run, image, hstore, image, contents_append,
    contents_singleton]

theorem memcpy_overrun {N : ℕ} (qs : List Report) (q : Report) (hq : 7 * qs.length ≤ N)
    (h : N < 7 * qs.length + 7) (w : World σ) :
    (memcpy (image N qs) (7 * qs.length) q.data : Yk σ _) w = (.fault, w) := by
  rw [memcpy, if_neg (by rw [length_image hq, Report.length_data]; omega), Proc.fault_run]

end Received

/-! ## The checks at the end -/

section Verify

variable {N expectBytes : ℕ} {qs : List Report} (hq : 7 * qs.length ≤ N) (w : World σ)

include hq

theorem verifyResponse_ok (h : Verified H N expectBytes qs) :
    verifyResponse H expectBytes (7 * qs.length) (image N qs) w = (.ok (), w) := by
  unfold verifyResponse
  rcases h with rfl | ⟨hle, hcrc, hsize⟩
  · rfl
  split_ifs
  · simp only [loadBytes, length_image hq, if_pos hle, Proc.pure_bind_run, hcrc, hsize]
    simp
  · rfl

/-- Checks that fail return 0, unless the expected size is beyond the buffer. -/
theorem verifyResponse_failed (h : ¬ Verified H N expectBytes qs) :
    (∃ e, verifyResponse H expectBytes (7 * qs.length) (image N qs) w
        = (.fail, { w with ykErrno := some e }))
      ∨ N < u32 (expectBytes + 2) ∧
        verifyResponse H expectBytes (7 * qs.length) (image N qs) w = (.fault, w) := by
  simp only [Verified, not_or, not_and] at h
  obtain ⟨hpos, h⟩ := h
  unfold verifyResponse
  rw [if_pos (Nat.pos_of_ne_zero hpos)]
  simp only [loadBytes, length_image hq]
  by_cases hle : u32 (expectBytes + 2) ≤ N
  · simp only [if_pos hle, Proc.pure_bind_run]
    by_cases hcrc : H.yubikeyCrc16 ((image N qs).take (u32 (expectBytes + 2))) = ykCrcOkResidual
    · rw [if_neg (not_not.2 hcrc), if_pos (h hle hcrc)]
      exact .inl ⟨_, rfl⟩
    · rw [if_pos hcrc]
      exact .inl ⟨_, rfl⟩
  · rw [if_neg hle]
    exact .inr ⟨Nat.lt_of_not_le hle, Proc.bind_fault rfl⟩

end Verify

/-! ## The exits of the loop -/

theorem reset_cases (H : Host σ) (w : World σ) :
    (∃ d, H.ykusbWrite dummyReport w.dev = (.ok (), d)
        ∧ Proc.attempt (ykForceKeyUpdate H) w = (.ok (some ()),
            { w with dev := d, trace := w.trace ++ [.write dummyReport true] }))
      ∨ ∃ e d, H.ykusbWrite dummyReport w.dev = (.error e, d)
        ∧ Proc.attempt (ykForceKeyUpdate H) w = (.ok none,
            { dev := d, ykErrno := e <|> w.ykErrno,
              trace := w.trace ++ [.write dummyReport false] }) := by
  rcases h : H.ykusbWrite dummyReport w.dev with ⟨e | u, d⟩
  · exact .inr ⟨e, d, rfl, Proc.attempt_fail (Backend.write_of_error h)⟩
  · exact .inl ⟨d, rfl, Proc.attempt_ok (Backend.write_of_ok h)⟩

def reset (H : Host σ) (w : World σ) : World σ := (Proc.attempt (ykForceKeyUpdate H) w).2

theorem attempt_reset (H : Host σ) (w : World σ) :
    ∃ a, Proc.attempt (ykForceKeyUpdate H) w = (.ok a, reset H w) := by
  unfold reset
  rcases reset_cases H w with ⟨d, -, h⟩ | ⟨e, d, -, h⟩
  · exact ⟨_, by rw [h]⟩
  · exact ⟨_, by rw [h]⟩

theorem reset_trace (H : Host σ) (w : World σ) :
    ∃ ok, (reset H w).trace = w.trace ++ [.write dummyReport ok] := forceKeyUpdate_trace H w

/-- How the loop leaves from `w`, with the reports `qs` received: what it returns, and the state
it leaves the session in. -/
inductive Exit (H : Host σ) (N expectBytes : ℕ) (qs : List Report) (w : World σ) :
    Ret (List UInt8 × ℕ) → World σ → Prop
  | full (hroom : ¬ room N qs.length) :
    Exit H N expectBytes qs w .fail { reset H w with ykErrno := some .EWRONGSIZ }
  | unread {e : Option YkErr} {d : σ} (hroom : room N qs.length)
      (hread : H.ykusbRead w.dev = (.error e, d)) :
    Exit H N expectBytes qs w .fail
      { dev := d, ykErrno := e <|> w.ykErrno, trace := w.trace ++ [.read none] }
  | accepted {t : Report} {d : σ} (hroom : room N qs.length)
      (hread : H.ykusbRead w.dev = (.ok t, d)) (ht : isLast t = true)
      (hv : Verified H N expectBytes qs) :
    Exit H N expectBytes qs w (.ok (image N qs, 7 * qs.length)) (reset H (consumed w [t] d))
  | rejected {t : Report} {d : σ} {e : YkErr} (hroom : room N qs.length)
      (hread : H.ykusbRead w.dev = (.ok t, d)) (ht : isLast t = true)
      (hv : ¬ Verified H N expectBytes qs) :
    Exit H N expectBytes qs w .fail { consumed w [t] d with ykErrno := some e }
  | overread {t : Report} {d : σ} (hroom : room N qs.length)
      (hread : H.ykusbRead w.dev = (.ok t, d)) (ht : isLast t = true)
      (hv : ¬ Verified H N expectBytes qs) (hlong : N < u32 (expectBytes + 2)) :
    Exit H N expectBytes qs w .fault (consumed w [t] d)
  | cutShort {t : Report} {d : σ} (hroom : room N qs.length)
      (hread : H.ykusbRead w.dev = (.ok t, d)) (ht : isPending t = false) :
    Exit H N expectBytes qs w .fail (reset H (consumed w [t] d))
  | overrun {t : Report} {d : σ} (hroom : room N qs.length)
      (hread : H.ykusbRead w.dev = (.ok t, d)) (ht : isData t = true)
      (hlong : N < 7 * qs.length + 7) :
    Exit H N expectBytes qs w .fault (consumed w [t] d)

section Loop

variable {N expectBytes : ℕ} {qs : List Report} {w : World σ}

theorem readResponseLoop_read {fuel : ℕ} {t : Report} {d : σ} (hroom : room N qs.length)
    (hread : H.ykusbRead w.dev = (.ok t, d)) :
    readResponseLoop H N expectBytes (fuel + 1) (7 * qs.length) (image N qs) w =
      (if isPending t then
        if sequenceNumber t == 0 then do
          verifyResponse H expectBytes (7 * qs.length) (image N qs)
          let _ ← Proc.attempt (ykForceKeyUpdate H)
          pure (image N qs, 7 * qs.length)
        else do
          let buf ← memcpy (image N qs) (7 * qs.length) t.data
          readResponseLoop H N expectBytes fuel (7 * qs.length + (featureRptSize - 1)) buf
      else do
        let _ ← Proc.attempt (ykForceKeyUpdate H)
        Proc.fail) (consumed w [t] d) := by
  rw [readResponseLoop, if_pos hroom.2, Proc.bind_ok (Backend.read_of_ok hread)]
  rfl

theorem readResponseLoop_data {fuel : ℕ} {t : Report} {d : σ} (hroom : room N qs.length)
    (hread : H.ykusbRead w.dev = (.ok t, d)) (ht : isData t = true)
    (hfit : 7 * qs.length + 7 ≤ N) :
    readResponseLoop H N expectBytes (fuel + 1) (7 * qs.length) (image N qs) w
      = readResponseLoop H N expectBytes fuel (7 * (qs ++ [t]).length) (image N (qs ++ [t]))
          (consumed w [t] d) := by
  obtain ⟨hp, hseq⟩ := isData_iff.1 ht
  rw [readResponseLoop_read hroom hread, if_pos hp, if_neg (by simpa using hseq),
    Proc.bind_ok (memcpy_image qs t hfit _), List.length_append]
  rfl

theorem readResponseLoop_full (fuel : ℕ) (hq : 7 * qs.length < N ∨ qs.length = 1)
    (hroom : ¬ room N qs.length) :
    readResponseLoop H N expectBytes (fuel + 1) (7 * qs.length) (image N qs) w
      = (.fail, { reset H w with ykErrno := some .EWRONGSIZ }) := by
  obtain ⟨a, ha⟩ := attempt_reset H w
  rw [readResponseLoop, if_neg (fun h => hroom ((room_iff hq).1 h)), Proc.bind_ok ha, failWith_run]

theorem readResponseLoop_cutShort {fuel : ℕ} {t : Report} {d : σ} (hroom : room N qs.length)
    (hread : H.ykusbRead w.dev = (.ok t, d)) (ht : isPending t = false) :
    readResponseLoop H N expectBytes (fuel + 1) (7 * qs.length) (image N qs) w
      = (.fail, reset H (consumed w [t] d)) := by
  obtain ⟨a, ha⟩ := attempt_reset H (consumed w [t] d)
  rw [readResponseLoop_read hroom hread, if_neg (by simp [ht]), Proc.bind_ok ha, Proc.fail_run]

theorem readResponseLoop_overrun {fuel : ℕ} {t : Report} {d : σ} (hroom : room N qs.length)
    (hread : H.ykusbRead w.dev = (.ok t, d)) (ht : isData t = true)
    (hlong : N < 7 * qs.length + 7) :
    readResponseLoop H N expectBytes (fuel + 1) (7 * qs.length) (image N qs) w
      = (.fault, consumed w [t] d) := by
  obtain ⟨hp, hseq⟩ := isData_iff.1 ht
  rw [readResponseLoop_read hroom hread, if_pos hp, if_neg (by simpa using hseq),
    Proc.bind_fault (memcpy_overrun qs t (Nat.le_of_lt hroom.1) hlong _)]

theorem readResponseLoop_last {fuel : ℕ} {t : Report} {d : σ} (hroom : room N qs.length)
    (hread : H.ykusbRead w.dev = (.ok t, d)) (ht : isLast t = true) :
    readResponseLoop H N expectBytes (fuel + 1) (7 * qs.length) (image N qs) w = (do
      verifyResponse H expectBytes (7 * qs.length) (image N qs)
      let _ ← Proc.attempt (ykForceKeyUpdate H)
      pure (image N qs, 7 * qs.length)) (consumed w [t] d) := by
  obtain ⟨hp, hseq⟩ := isLast_iff.1 ht
  rw [readResponseLoop_read hroom hread, if_pos hp, if_pos (by simp [hseq])]

theorem readResponseLoop_accepted {fuel : ℕ} {t : Report} {d : σ} (hroom : room N qs.length)
    (hread : H.ykusbRead w.dev = (.ok t, d)) (ht : isLast t = true)
    (hv : Verified H N expectBytes qs) :
    readResponseLoop H N expectBytes (fuel + 1) (7 * qs.length) (image N qs) w
      = (.ok (image N qs, 7 * qs.length), reset H (consumed w [t] d)) := by
  obtain ⟨a, ha⟩ := attempt_reset H (consumed w [t] d)
  rw [readResponseLoop_last hroom hread ht,
    Proc.bind_ok (verifyResponse_ok (Nat.le_of_lt hroom.1) _ hv), Proc.bind_ok ha, Proc.pure_run]

theorem readResponseLoop_rejected (fuel : ℕ) {t : Report} {d : σ} (hroom : room N qs.length)
    (hread : H.ykusbRead w.dev = (.ok t, d)) (ht : isLast t = true)
    (hv : ¬ Verified H N expectBytes qs) :
    (∃ e, readResponseLoop H N expectBytes (fuel + 1) (7 * qs.length) (image N qs) w
        = (.fail, { consumed w [t] d with ykErrno := some e }))
      ∨ N < u32 (expectBytes + 2) ∧
        readResponseLoop H N expectBytes (fuel + 1) (7 * qs.length) (image N qs) w
          = (.fault, consumed w [t] d) := by
  rw [readResponseLoop_last hroom hread ht]
  rcases verifyResponse_failed (Nat.le_of_lt hroom.1) (consumed w [t] d) hv with
    ⟨e, he⟩ | ⟨hlong, he⟩
  · exact .inl ⟨e, Proc.bind_fail he⟩
  · exact .inr ⟨hlong, Proc.bind_fault he⟩

variable (H expectBytes w) in
/-- A round of the loop leaves by an exit, or takes a data report that fits. -/
theorem readResponseLoop_round (hq : 7 * qs.length < N ∨ qs.length = 1) (fuel : ℕ) :
    (∃ res w', Exit H N expectBytes qs w res w'
        ∧ readResponseLoop H N expectBytes (fuel + 1) (7 * qs.length) (image N qs) w = (res, w'))
      ∨ ∃ t d, room N qs.length ∧ H.ykusbRead w.dev = (.ok t, d) ∧ isData t = true
        ∧ 7 * qs.length + 7 ≤ N := by
  by_cases hroom : room N qs.length
  swap
  · exact .inl ⟨_, _, .full hroom, readResponseLoop_full fuel hq hroom⟩
  rcases hread : H.ykusbRead w.dev with ⟨e | t, d⟩
  · refine .inl ⟨_, _, .unread hroom hread, ?_⟩
    rw [readResponseLoop, if_pos hroom.2]
    exact Proc.bind_fail (Backend.read_of_error hread)
  rcases hp : isPending t with _ | _
  · exact .inl ⟨_, _, .cutShort hroom hread hp, readResponseLoop_cutShort hroom hread hp⟩
  by_cases hseq : sequenceNumber t = 0
  · have ht : isLast t = true := isLast_iff.2 ⟨hp, hseq⟩
    by_cases hv : Verified H N expectBytes qs
    · exact .inl ⟨_, _, .accepted hroom hread ht hv, readResponseLoop_accepted hroom hread ht hv⟩
    rcases readResponseLoop_rejected fuel hroom hread ht hv with ⟨e, he⟩ | ⟨hlong, he⟩
    · exact .inl ⟨_, _, .rejected hroom hread ht hv, he⟩
    · exact .inl ⟨_, _, .overread hroom hread ht hv hlong, he⟩
  · have ht : isData t = true := isData_iff.2 ⟨hp, hseq⟩
    by_cases hfit : 7 * qs.length + 7 ≤ N
    · exact .inr ⟨t, d, hroom, rfl, ht, hfit⟩
    · exact .inl ⟨_, _, .overrun hroom hread ht (by omega),
        readResponseLoop_overrun hroom hread ht (by omega)⟩

variable (H expectBytes) in
/-- Whatever the key answers, the loop takes data reports and leaves by an exit. -/
theorem readResponseLoop_exits (hN : N < 2 ^ 32) :
    ∀ (fuel : ℕ) (qs : List Report) (w : World σ),
    (7 * qs.length < N ∨ qs.length = 1) → 7 * qs.length ≤ N → N < 7 * qs.length + fuel →
    ∃ rs d res w', (∀ r ∈ rs, isData r = true) ∧ H.Serves w.dev rs d
      ∧ (7 * (qs ++ rs).length < N ∨ (qs ++ rs).length = 1)
      ∧ Exit H N expectBytes (qs ++ rs) (consumed w rs d) res w'
      ∧ readResponseLoop H N expectBytes fuel (7 * qs.length) (image N qs) w = (res, w')
  | 0, qs, w, _, h7, hfuel => by omega
  | fuel + 1, qs, w, hq, h7, hfuel => by
    rcases readResponseLoop_round H expectBytes w hq fuel with
      ⟨res, w', hexit, hrun⟩ | ⟨t, d, hroom, hread, ht, hfit⟩
    · exact ⟨[], w.dev, res, w', by simp, rfl, by simpa using hq, by simpa using hexit, hrun⟩
    · have hlen : (qs ++ [t]).length = qs.length + 1 := by simp
      have hlt := fits_of_room hN hroom hfit
      obtain ⟨rs, e, res, w', hrs, hserve, hq', hexit, hrun⟩ :=
        readResponseLoop_exits hN fuel (qs ++ [t]) (consumed w [t] d)
          (.inl (by rw [hlen]; exact hlt)) (by rw [hlen]; omega) (by rw [hlen]; omega)
      refine ⟨t :: rs, e, res, w', by simpa [ht] using hrs, ⟨d, hread, hserve⟩, ?_, ?_, ?_⟩
      · rwa [List.append_assoc] at hq'
      · rwa [List.append_assoc, consumed_consumed] at hexit
      · rw [readResponseLoop_data hroom hread ht hfit, hrun]

/-- Data reports that fit are taken one after the other. -/
theorem readResponseLoop_takes (hN : N < 2 ^ 32) (fuel : ℕ) : ∀ (rs : List Report)
    {qs : List Report} {w : World σ} {d : σ}, (∀ r ∈ rs, isData r = true) →
      H.Serves w.dev rs d → (7 * (qs ++ rs).length < N ∨ rs = []) →
      readResponseLoop H N expectBytes (fuel + rs.length) (7 * qs.length) (image N qs) w
        = readResponseLoop H N expectBytes fuel (7 * (qs ++ rs).length) (image N (qs ++ rs))
            (consumed w rs d)
  | [], qs, w, d, _, hserve, _ => by
    obtain rfl : w.dev = d := hserve
    simp
  | t :: rs, qs, w, d, hdata, hserve, hfit => by
    obtain ⟨e, hread, hserve⟩ := hserve
    obtain ⟨ht, hdata⟩ := List.forall_mem_cons.1 hdata
    have hlt : 7 * (qs ++ t :: rs).length < N := by simpa using hfit
    have hlen : (qs ++ t :: rs).length = qs.length + 1 + rs.length := by
      rw [List.length_append, List.length_cons]
      omega
    have hroom : room N qs.length := room_of_lt hN (by omega)
    rw [List.length_cons, ← Nat.add_assoc,
      readResponseLoop_data hroom hread ht (by omega),
      readResponseLoop_takes hN fuel rs hdata hserve (.inl (by simpa using hlt)),
      consumed_consumed, List.append_assoc]
    rfl

end Loop

/-! ## The call -/

theorem statusMet_pending (r : Report) :
    statusMet true respPendingFlag r.status = isPending r := by
  have h : ∀ s : Fin 256, (UInt8.ofFin s &&& 0x40 == 0x40) = (UInt8.ofFin s &&& 0x40 != 0) := by
    decide +kernel
  exact h r.status.toFin

/-- From `d`, the key answers with reports the wait goes on over, with the first report of a
response, and with more data reports. -/
structure Streams (H : Host σ) (flags : UInt32) (d : σ) (idle : List Report) (r₀ : Report)
    (rs : List Report) (d' : σ) : Prop where
  waits : outlasts flags true respPendingFlag 1 0 1000 false idle = true
  pending : isPending r₀ = true
  data : ∀ r ∈ rs, isData r = true
  serves : H.Serves d (idle ++ r₀ :: rs) d'

def received (w : World σ) (idle : List Report) (r₀ : Report) (rs : List Report) (d : σ) :
    World σ :=
  consumed (polled w 1 (idle ++ [r₀]) d) rs d

section Call

variable {slot : UInt8} {flags bufsize expectBytes : UInt32} {w : World σ}

theorem Streams.split {d d' : σ} {idle rs : List Report} {r₀ : Report}
    (h : Streams H flags d idle r₀ rs d') :
    ∃ e, H.Serves d (idle ++ [r₀]) e ∧ H.Serves e rs d' := by
  have hserve := h.serves
  rwa [List.append_cons, Backend.serves_append] at hserve

theorem Streams.continue {d d' e : σ} {idle rs : List Report} {r₀ : Report}
    (h : Streams H flags d idle r₀ [] d') (hdata : ∀ r ∈ rs, isData r = true)
    (hserve : H.Serves d' rs e) : Streams H flags d idle r₀ rs e := by
  refine ⟨h.waits, h.pending, hdata, ?_⟩
  rw [List.append_cons, Backend.serves_append]
  exact ⟨d', h.serves, hserve⟩

/-- A wait that succeeds has seen the first report of a response. -/
theorem streams_of_wait {w' : World σ} {r₀ : Report}
    (h : ykWaitForKeyStatus H slot flags 1000 true respPendingFlag w = (.ok r₀, w')) :
    ∃ idle, Streams H flags w.dev idle r₀ [] w'.dev ∧ w' = received w idle r₀ [] w'.dev := by
  obtain ⟨idle, hidle, hmet, hserve, hw⟩ := ykWaitForKeyStatus_ok h
  rw [statusMet_pending] at hmet
  exact ⟨idle, ⟨hidle, hmet, by simp, hserve⟩, hw.trans (consumed_nil (polled w 1 _ _)).symm⟩

theorem wait_of_streams (slot : UInt8) {idle rs : List Report} {r₀ : Report} {d : σ}
    (h : Streams H flags w.dev idle r₀ rs d) :
    ∃ e, H.Serves e rs d ∧ ykWaitForKeyStatus H slot flags 1000 true respPendingFlag w
      = (.ok r₀, polled w 1 (idle ++ [r₀]) e) := by
  obtain ⟨e, hidle, hrs⟩ := h.split
  exact ⟨e, hrs, ykWaitForKeyStatus_of_outlasts (by omega) h.waits
    (by rw [statusMet_pending, h.pending]) hidle⟩

theorem ykReadResponseFromKey_starts {r₀ : Report} {w' : World σ} (h7 : 7 ≤ bufsize.toNat)
    (h : ykWaitForKeyStatus H slot flags 1000 true respPendingFlag w = (.ok r₀, w')) :
    ykReadResponseFromKey H slot flags bufsize expectBytes w
      = readResponseLoop H bufsize.toNat expectBytes.toNat (bufsize.toNat + 1)
          (7 * [r₀].length) (image bufsize.toNat [r₀]) w' := by
  have hcopy := memcpy_image (N := bufsize.toNat) [] r₀ (by simpa using h7) w'
  rw [ykReadResponseFromKey, Proc.bind_ok h]
  exact Proc.bind_ok hcopy

theorem ykReadResponseFromKey_reaches (slot : UInt8) (expectBytes : UInt32)
    {idle rs : List Report} {r₀ : Report} {d : σ}
    (h7 : 7 ≤ bufsize.toNat) (h : Streams H flags w.dev idle r₀ rs d)
    (hfit : 7 * (r₀ :: rs).length < bufsize.toNat ∨ rs = []) :
    ∃ fuel, ykReadResponseFromKey H slot flags bufsize expectBytes w
      = readResponseLoop H bufsize.toNat expectBytes.toNat (fuel + 1)
          (7 * (r₀ :: rs).length) (image bufsize.toNat (r₀ :: rs)) (received w idle r₀ rs d) := by
  obtain ⟨e, hrs, hwait⟩ := wait_of_streams slot h
  have hlen : rs.length ≤ bufsize.toNat := by
    rcases hfit with hfit | rfl
    · rw [List.length_cons] at hfit
      omega
    · simp
  refine ⟨bufsize.toNat - rs.length, ?_⟩
  have hfuel : bufsize.toNat + 1 = bufsize.toNat - rs.length + 1 + rs.length := by omega
  rw [ykReadResponseFromKey_starts h7 hwait, hfuel,
    readResponseLoop_takes bufsize.toNat_lt _ rs h.data hrs hfit]
  rfl

/-- Once a response has started, the loop takes data reports and leaves by an exit. -/
theorem ykReadResponseFromKey_exits_of_streams (slot : UInt8) (expectBytes : UInt32)
    {idle : List Report} {r₀ : Report} {d₀ : σ}
    (h7 : 7 ≤ bufsize.toNat) (h : Streams H flags w.dev idle r₀ [] d₀) :
    ∃ rs d res w', (∀ r ∈ rs, isData r = true) ∧ H.Serves d₀ rs d
      ∧ (7 * (r₀ :: rs).length < bufsize.toNat ∨ rs = [])
      ∧ Exit H bufsize.toNat expectBytes.toNat (r₀ :: rs) (received w idle r₀ rs d) res w'
      ∧ ykReadResponseFromKey H slot flags bufsize expectBytes w = (res, w') := by
  obtain ⟨e, he, hwait⟩ := wait_of_streams slot h
  obtain rfl : e = d₀ := he
  obtain ⟨rs, d, res, w', hdata, hserve, hfit, hexit, hrun⟩ :=
    readResponseLoop_exits H expectBytes.toNat bufsize.toNat_lt (bufsize.toNat + 1) [r₀]
      (polled w 1 (idle ++ [r₀]) e) (.inr rfl) (by simpa using h7) (by simp; omega)
  refine ⟨rs, d, res, w', hdata, hserve, by simpa using hfit, hexit, ?_⟩
  rw [ykReadResponseFromKey_starts h7 hwait, hrun]

/-- Whatever the key answers: the wait fails, or a response starts and the loop leaves by an
exit. -/
theorem ykReadResponseFromKey_exits (H : Host σ) (slot : UInt8) (flags expectBytes : UInt32)
    (h7 : 7 ≤ bufsize.toNat) (w : World σ) :
    (∃ w', ykWaitForKeyStatus H slot flags 1000 true respPendingFlag w = (.fail, w')
        ∧ ykReadResponseFromKey H slot flags bufsize expectBytes w = (.fail, w'))
      ∨ ∃ idle r₀ rs d res w', Streams H flags w.dev idle r₀ rs d
        ∧ (7 * (r₀ :: rs).length < bufsize.toNat ∨ rs = [])
        ∧ Exit H bufsize.toNat expectBytes.toNat (r₀ :: rs) (received w idle r₀ rs d) res w'
        ∧ ykReadResponseFromKey H slot flags bufsize expectBytes w = (res, w') := by
  rcases (ykWaitForKeyStatus_terminates H slot flags true respPendingFlag (m := 1000) (by decide)
    w).cases with ⟨r₀, w₁, hwait⟩ | ⟨w₁, hwait⟩
  · obtain ⟨idle, hstart, -⟩ := streams_of_wait hwait
    obtain ⟨rs, d, res, w', hdata, hserve, hfit, hexit, hrun⟩ :=
      ykReadResponseFromKey_exits_of_streams slot expectBytes h7 hstart
    exact .inr ⟨idle, r₀, rs, d, res, w', hstart.continue hdata hserve, hfit, hexit, hrun⟩
  · exact .inl ⟨w₁, hwait, Proc.bind_fail hwait⟩

/-- A buffer that cannot hold the first part. -/
theorem ykReadResponseFromKey_small (h7 : bufsize.toNat < 7) {r₀ : Report} {w' : World σ}
    (h : ykWaitForKeyStatus H slot flags 1000 true respPendingFlag w = (.ok r₀, w')) :
    ykReadResponseFromKey H slot flags bufsize expectBytes w = (.fault, w') := by
  have hcopy := memcpy_overrun (N := bufsize.toNat) [] r₀ (by simp) (by simpa using h7) w'
  rw [ykReadResponseFromKey, Proc.bind_ok h]
  exact Proc.bind_fault hcopy

end Call

end YkPers
