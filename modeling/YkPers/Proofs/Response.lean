import YkPers.Proofs.ReadResponse
import YkPers.Proofs.WriteToKey

/-!
# What a response comes to

A response that the key streams whole is put together (`ykReadResponseFromKey_receives`), and
none is accepted that is not whole (`ykReadResponseFromKey_whole`). The key's read mode is reset
on all exits but two (`ykReadResponseFromKey_resets_iff`): a response that fails the checks at its
end, and a response larger than any buffer.
-/

namespace YkPers

variable {σ : Type} {H : Host σ} {slot : UInt8} {flags bufsize expectBytes : UInt32} {w : World σ}

/-! ## The trace of a call -/

section Trace

theorem received_trace (w : World σ) (idle : List Report) (r₀ : Report) (rs : List Report)
    (d : σ) : (received w idle r₀ rs d).trace
      = w.trace ++ (pollTrace 1 (idle ++ [r₀]) ++ rs.map fun r => .read (some r)) := by
  simp [received, consumed, polled]

/-- What a call logs that ends by reading `t` and, maybe, with the reset. -/
theorem events_of_received {x : Yk σ (List UInt8 × ℕ)} {idle rs : List Report} {r₀ : Report}
    {d : σ} {tail : List Event}
    (h : (x w).2.trace = (received w idle r₀ rs d).trace ++ tail) :
    events x w = pollTrace 1 (idle ++ [r₀]) ++ (rs.map fun r => .read (some r)) ++ tail :=
  events_of_run (by rw [h, received_trace, List.append_assoc])

end Trace

theorem roundUp7_eq {n : ℕ} (h : n + 6 < 2 ^ 32) : roundUp7 n = 7 * ((n + 6) / 7) := by
  unfold roundUp7 u32
  split_ifs with hn
  · rw [Nat.mod_eq_of_lt (by omega)]
    omega
  · omega

/-! ## A response that the key streams -/

/-- The reports that `n` bytes and their checksum take. -/
def responseParts (n : ℕ) : ℕ := (n + 8) / 7

/-- The response with its checksum, padded to whole reports. -/
def responseBytes (r : List UInt8) : List UInt8 :=
  let body := r ++ Endian.little.bytes16 (~~~ crc16 r)
  body ++ List.replicate (7 * responseParts r.length - body.length) 0

/-- The reports that carry the response, numbered from 0. -/
def responseReports (r : List UInt8) : List Report :=
  (List.range (responseParts r.length)).map fun i =>
    Report.ofBytes (Buffer.part 7 (responseBytes r) i ++ [respPendingFlag ||| UInt8.ofNat i])

section Response

variable {r : List UInt8}

theorem length_responseBytes (r : List UInt8) :
    (responseBytes r).length = 7 * responseParts r.length := by
  simp only [responseBytes, Endian.bytes16, responseParts, List.length_append,
    List.length_replicate, List.length_cons, List.length_nil]
  omega

@[simp] theorem length_responseReports (r : List UInt8) :
    (responseReports r).length = responseParts r.length := by
  simp [responseReports]

theorem contents_responseReports (r : List UInt8) :
    contents (responseReports r) = responseBytes r := by
  have hlen := length_responseBytes r
  have hpart : ∀ i ∈ List.range (responseParts r.length),
      (Report.ofBytes (Buffer.part 7 (responseBytes r) i
        ++ [respPendingFlag ||| UInt8.ofNat i])).data = Buffer.part 7 (responseBytes r) i :=
    fun i hi => Report.data_ofBytes (Buffer.length_part hlen (List.mem_range.1 hi)) _
  calc contents (responseReports r)
      = (List.range (responseParts r.length)).flatMap fun i =>
          (Report.ofBytes (Buffer.part 7 (responseBytes r) i
            ++ [respPendingFlag ||| UInt8.ofNat i])).data := by
        rw [contents, responseReports, List.flatMap_map]
    _ = (List.range (responseParts r.length)).flatMap (Buffer.part 7 (responseBytes r)) :=
        List.flatMap_congr hpart
    _ = responseBytes r := by
        rw [Buffer.flatMap_part, ← hlen, List.take_length]

theorem status_pending : ∀ i < 32, (respPendingFlag ||| UInt8.ofNat i) &&& respPendingFlag ≠ 0
    ∧ ((respPendingFlag ||| UInt8.ofNat i) &&& 31).toNat = i := by
  decide

theorem status_responseReports {i : ℕ} (hi : i < (responseReports r).length) :
    ((responseReports r)[i]).status = respPendingFlag ||| UInt8.ofNat i := by
  simp only [responseReports, List.getElem_map, List.getElem_range]
  refine Report.status_ofBytes (Buffer.length_part (length_responseBytes r) ?_) _
  simpa using hi

/-- The first report is pending, and up to 32 reports the others are data reports. -/
theorem responseReports_cons (hk : responseParts r.length ≤ 32) :
    ∃ r₀ rs, responseReports r = r₀ :: rs ∧ isPending r₀ = true
      ∧ ∀ x ∈ rs, isData x = true := by
  have hpos : 0 < (responseReports r).length := by
    rw [length_responseReports, responseParts]
    omega
  obtain ⟨r₀, rs, h⟩ := List.exists_cons_of_length_pos hpos
  have hstatus : ∀ {i : ℕ} (hi : i < (r₀ :: rs).length),
      (r₀ :: rs)[i].status = respPendingFlag ||| UInt8.ofNat i ∧ i < 32 := by
    intro i hi
    have hi' : i < (responseReports r).length := by rwa [h]
    have := status_responseReports hi'
    simp only [h] at this
    rw [length_responseReports] at hi'
    exact ⟨this, by omega⟩
  refine ⟨r₀, rs, h, ?_, fun x hx => ?_⟩
  · obtain ⟨h0, h32⟩ := hstatus (i := 0) (by simp)
    have hp := (status_pending 0 h32).1
    rw [← h0] at hp
    simpa [isPending] using hp
  · obtain ⟨i, hi, rfl⟩ := List.getElem_of_mem hx
    obtain ⟨h1, h32⟩ := hstatus (i := i + 1) (by simpa using hi)
    obtain ⟨hp, hseq⟩ := status_pending (i + 1) h32
    rw [← h1] at hp hseq
    refine isData_iff.2 ⟨by simpa [isPending] using hp, fun hzero => ?_⟩
    have := congrArg UInt8.toNat hzero
    rw [sequenceNumber] at this
    simp only [List.getElem_cons_succ] at hseq
    rw [hseq] at this
    simp at this

theorem take_responseBytes (r : List UInt8) :
    (responseBytes r).take (r.length + 2) = r ++ Endian.little.bytes16 (~~~ crc16 r) := by
  rw [responseBytes]
  exact List.take_left' (by simp [Endian.bytes16])

theorem take_image {N m : ℕ} {qs : List Report} (h : m ≤ 7 * qs.length) :
    (image N qs).take m = (contents qs).take m := by
  rw [image, List.take_append_of_le_length (by rw [length_contents]; exact h)]

/-- The response passes its checks in any buffer that holds it. -/
theorem verified_responseReports (hcrc : H.yubikeyCrc16 = crc16) {N : ℕ}
    (hk : responseParts r.length ≤ 32) (hN : 7 * responseParts r.length ≤ N) :
    Verified H N r.length (responseReports r) := by
  unfold responseParts at hk hN
  have hu : u32 (r.length + 2) = r.length + 2 := Nat.mod_eq_of_lt (by omega)
  refine .inr ⟨by omega, ?_, ?_⟩
  · rw [hu, take_image (by rw [length_responseReports, responseParts]; omega),
      contents_responseReports, take_responseBytes, hcrc, crc16_append_complement]
  · rw [hu, length_responseReports, roundUp7_eq (by omega), responseParts]

end Response

theorem exists_full {N : ℕ} (h7 : 7 ≤ N) {k : ℕ} (hk : 1 ≤ k) (hk32 : k ≤ 32)
    (h : N < 7 * k + 8) :
    ∃ m, 1 ≤ m ∧ m ≤ k ∧ (7 * m < N ∨ m = 1) ∧ ¬ room N m := by
  have hu : ∀ {m}, m ≤ k → u32 (7 * m + featureRptSize) = 7 * m + 8 :=
    fun hm => Nat.mod_eq_of_lt (by simp only [featureRptSize]; omega)
  by_cases h15 : N < 15
  · refine ⟨1, Nat.le_refl 1, hk, .inr rfl, fun hroom => ?_⟩
    have := hroom.2
    rw [hu hk] at this
    omega
  · have hm : (N - 1) / 7 ≤ k := by omega
    refine ⟨(N - 1) / 7, by omega, hm, .inl (by omega), fun hroom => ?_⟩
    have := hroom.2
    rw [hu hm] at this
    omega

/-- A call that ends with the reset wrote it last. -/
theorem getLast_writes_of_reset {x : Yk σ (List UInt8 × ℕ)} {idle rs : List Report} {r₀ : Report}
    {d : σ} {u : World σ} {tail : List Event}
    (hx : (x w).2.trace = (reset H u).trace)
    (hu : u.trace = (received w idle r₀ rs d).trace ++ tail) :
    (writes (events x w)).getLast? = some dummyReport := by
  obtain ⟨ok, hr⟩ := reset_trace H u
  have htrace : (x w).2.trace
      = (received w idle r₀ rs d).trace ++ (tail ++ [.write dummyReport ok]) := by
    rw [hx, hr, hu, List.append_assoc]
  rw [events_of_received htrace]
  simp

section Receives

variable {r : List UInt8} {idle rs : List Report} {r₀ last : Report} {d e : σ}

/-- With room for one report more, the response is returned. -/
theorem receives_of_room (slot : UInt8) (hcrc : H.yubikeyCrc16 = crc16)
    (hr : r.length = expectBytes.toNat)
    (hk : responseParts r.length ≤ 32) (hreports : responseReports r = r₀ :: rs)
    (hstream : Streams H flags w.dev idle r₀ rs d) (hread : H.ykusbRead d = (.ok last, e))
    (hlast : isLast last = true) (hroom : 7 * responseParts r.length + 8 ≤ bufsize.toNat) :
    (∃ w', ykReadResponseFromKey H slot flags bufsize expectBytes w
        = (.ok (image bufsize.toNat (responseReports r), 7 * responseParts r.length), w'))
      ∧ (writes (events (ykReadResponseFromKey H slot flags bufsize expectBytes) w)).getLast?
        = some dummyReport := by
  have hlt := bufsize.toNat_lt
  have hlen : (r₀ :: rs).length = responseParts r.length := by
    rw [← hreports, length_responseReports]
  have hfit : room bufsize.toNat (r₀ :: rs).length := by
    rw [hlen]
    refine ⟨by omega, ?_⟩
    rw [u32, Nat.mod_eq_of_lt (by simp only [featureRptSize]; omega)]
    exact hroom
  have hv := verified_responseReports hcrc (N := bufsize.toNat) hk (by omega)
  rw [hr, hreports] at hv
  obtain ⟨fuel, hrun⟩ := ykReadResponseFromKey_reaches slot expectBytes (by omega) hstream
    (.inl hfit.1)
  rw [readResponseLoop_accepted (w := received w idle r₀ rs d) hfit hread hlast hv] at hrun
  exact ⟨⟨_, by rw [hrun, hlen, hreports]⟩,
    getLast_writes_of_reset (u := consumed _ [last] e) (by rw [hrun]) rfl⟩

/-- Without it, the call finds its buffer full. -/
theorem receives_of_full (slot : UInt8) (expectBytes : UInt32) (h7 : 7 ≤ bufsize.toNat)
    (hk : responseParts r.length ≤ 32)
    (hreports : responseReports r = r₀ :: rs) (hstream : Streams H flags w.dev idle r₀ rs d)
    (hroom : bufsize.toNat < 7 * responseParts r.length + 8) :
    (∃ w', ykReadResponseFromKey H slot flags bufsize expectBytes w = (.fail, w')
        ∧ w'.ykErrno = some .EWRONGSIZ)
      ∧ (writes (events (ykReadResponseFromKey H slot flags bufsize expectBytes) w)).getLast?
        = some dummyReport := by
  have hlen : rs.length + 1 = responseParts r.length := by
    rw [← length_responseReports, hreports, List.length_cons]
  obtain ⟨m, hm1, hmk, hfit, hfull⟩ := exists_full h7 (by omega) hk hroom
  -- the reports before the buffer is full
  obtain ⟨d₀, hstart, hrs⟩ := hstream.split
  rw [← List.take_append_drop (m - 1) rs, Backend.serves_append] at hrs
  obtain ⟨d₁, htaken, -⟩ := hrs
  have hprefix : Streams H flags w.dev idle r₀ (rs.take (m - 1)) d₁ :=
    Streams.continue ⟨hstream.waits, hstream.pending, by simp, hstart⟩
      (fun x hx => hstream.data x (List.mem_of_mem_take hx)) htaken
  have hcount : (r₀ :: rs.take (m - 1)).length = m := by
    rw [List.length_cons, List.length_take]
    omega
  have hfit' : 7 * (r₀ :: rs.take (m - 1)).length < bufsize.toNat ∨ rs.take (m - 1) = [] := by
    rcases hfit with hfit | rfl
    · exact .inl (by rwa [hcount])
    · exact .inr rfl
  obtain ⟨fuel, hrun⟩ := ykReadResponseFromKey_reaches slot expectBytes h7 hprefix hfit'
  rw [← hcount] at hfit hfull
  rw [readResponseLoop_full fuel hfit hfull] at hrun
  exact ⟨⟨_, hrun, rfl⟩, getLast_writes_of_reset (u := received w idle r₀ _ d₁) (by rw [hrun])
    (List.append_nil _).symm⟩

end Receives

/-- The key streams a response after idle reports that fit the time budget. The call returns it
if and only if there is room for one report more than it takes, and resets the read mode. -/
theorem ykReadResponseFromKey_receives (H : Host σ) (hcrc : H.yubikeyCrc16 = crc16) (slot : UInt8)
    (flags : UInt32) {r : List UInt8} (hk : (r.length + 8) / 7 ≤ 32)
    {idle : List Report} (hidle : ∀ x ∈ idle, x.status = 0)
    (hbudget : sleptBefore idle.length 1 < 1000) {last : Report} (hlast : last.status = 0x40)
    {bufsize : UInt32} (h7 : 7 ≤ bufsize.toNat) {w : World σ} {d : σ}
    (hserve : H.Serves w.dev (idle ++ responseReports r ++ [last]) d) :
    let run := ykReadResponseFromKey H slot flags bufsize (UInt32.ofNat r.length)
    let k := (r.length + 8) / 7
    ((∃ a w', run w = (.ok a, w')) ↔ 7 * k + 8 ≤ bufsize.toNat)
      ∧ (∀ buf bytesRead w', run w = (.ok (buf, bytesRead), w') →
        buf.take r.length = r ∧ bytesRead = 7 * k)
      ∧ (bufsize.toNat < 7 * k + 8 → ∃ w', run w = (.fail, w') ∧ w'.ykErrno = some .EWRONGSIZ)
      ∧ (writes (events run w)).getLast? = some dummyReport := by
  intro run k
  have hexpect : r.length = (UInt32.ofNat r.length).toNat :=
    (UInt32.toNat_ofNat_of_lt' (by simp only [UInt32.size]; omega)).symm
  obtain ⟨r₀, rs, hreports, hp, hdata⟩ := responseReports_cons hk
  obtain ⟨e, hrs, d', hread, -⟩ := Backend.serves_append.1 hserve
  have hwaits : outlasts flags true respPendingFlag 1 0 1000 false idle = true := by
    refine outlasts_of_idle (by omega) (fun x hx => ?_) (by omega) (by omega)
    rw [hidle x hx]
    decide
  have hstream : Streams H flags w.dev idle r₀ rs e := ⟨hwaits, hp, hdata, hreports ▸ hrs⟩
  have hisLast : isLast last = true := by
    simp only [isLast, isPending, sequenceNumber, hlast]
    decide
  by_cases hroom : 7 * responseParts r.length + 8 ≤ bufsize.toNat
  · obtain ⟨⟨w', hrun⟩, hwrites⟩ :=
      receives_of_room slot hcrc hexpect hk hreports hstream hread hisLast hroom
    refine ⟨⟨fun _ => hroom, fun _ => ⟨_, w', hrun⟩⟩, fun buf bytesRead w'' h => ?_,
      fun h => absurd hroom (Nat.not_le.2 h), hwrites⟩
    simp only [run, hrun, Prod.mk.injEq, Ret.ok.injEq] at h
    obtain ⟨⟨rfl, rfl⟩, -⟩ := h
    refine ⟨?_, rfl⟩
    have hbody := congrArg (List.take r.length) (take_responseBytes r)
    rw [List.take_take, Nat.min_eq_left (by omega), List.take_left] at hbody
    rw [take_image (by rw [length_responseReports, responseParts]; omega),
      contents_responseReports, hbody]
  · obtain ⟨⟨w', hrun, herrno⟩, hwrites⟩ := receives_of_full slot
      (UInt32.ofNat r.length) h7 hk hreports hstream (Nat.lt_of_not_le hroom)
    refine ⟨⟨?_, fun h => absurd h hroom⟩, fun buf bytesRead w'' h => ?_,
      fun _ => ⟨w', hrun, herrno⟩, hwrites⟩
    · rintro ⟨a, w'', h⟩
      simp [run, hrun] at h
    · simp [run, hrun] at h

open ScriptedKey in
theorem ykReadResponseFromKey_receives_serial :
    ∃ a w', ykReadResponseFromKey (host .big crc16) 0 0 15 (UInt32.ofNat 4)
      (session ([statusReport 0] ++ responseReports [1, 2, 3, 4] ++ [statusReport 0x40]))
        = (.ok a, w') := by
  have hserve := serves .big crc16 []
    ([statusReport 0] ++ responseReports [1, 2, 3, 4] ++ [statusReport 0x40])
  have hidle : ∀ x ∈ [statusReport 0], x.status = 0 := by
    simp [statusReport, Report.status, Report.ofBytes]
  have hroom : 7 ≤ (15 : UInt32).toNat := by decide
  have hiff := (ykReadResponseFromKey_receives (host .big crc16) rfl 0 0 (by decide) hidle
    (by decide) rfl hroom (w := session _) hserve).1
  exact hiff.2 (by decide)

/-! ## The reset -/

/-- The exits that leave the key in its read mode: the response ends and fails its checks, or a
report comes that has room only by the wrap of `bytes_read + 8`. -/
def LeavesReadMode (H : Host σ) (N expectBytes : ℕ) (r₀ : Report) (d : σ) : Prop :=
  ∃ rs t d', (∀ r ∈ rs, isData r = true) ∧ H.Serves d (rs ++ [t]) d'
    ∧ room N (r₀ :: rs).length
    ∧ (isLast t = true ∧ ¬ Verified H N expectBytes (r₀ :: rs)
      ∨ isData t = true ∧ N < 7 * (r₀ :: rs).length + 7)

theorem overrun_large {N m : ℕ} (hN : N < 2 ^ 32) (h : room N m) (hlong : N < 7 * m + 7) :
    2 ^ 32 - 3 ≤ N := by
  obtain ⟨hlt, h⟩ := h
  simp only [u32, featureRptSize] at h
  by_cases hwrap : 7 * m + 8 < 2 ^ 32
  · rw [Nat.mod_eq_of_lt hwrap] at h
    omega
  · omega

/-- Where the key's answers end a call in its read mode, nothing was written to it. -/
theorem no_writes_of_leavesReadMode {idle : List Report} {r₀ : Report} {d : σ}
    (h7 : 7 ≤ bufsize.toNat) (hstart : Streams H flags w.dev idle r₀ [] d)
    (h : LeavesReadMode H bufsize.toNat expectBytes.toNat r₀ d) :
    writes (events (ykReadResponseFromKey H slot flags bufsize expectBytes) w) = [] := by
  obtain ⟨rs, t, d', hdata, hserve, hroom, ht⟩ := h
  obtain ⟨e, hrs, e', hread, -⟩ := Backend.serves_append.1 hserve
  obtain ⟨fuel, hrun⟩ := ykReadResponseFromKey_reaches slot expectBytes h7
    (hstart.continue hdata hrs) (.inl hroom.1)
  have hread : H.ykusbRead (received w idle r₀ rs e).dev = (.ok t, e') := hread
  have htrace : (ykReadResponseFromKey H slot flags bufsize expectBytes w).2.trace
      = (received w idle r₀ rs e).trace ++ [.read (some t)] := by
    rw [hrun]
    rcases ht with ⟨hlast, hv⟩ | ⟨ht, hlong⟩
    · rcases readResponseLoop_rejected fuel hroom hread hlast hv with ⟨_, he⟩ | ⟨-, he⟩
      · rw [he]
        rfl
      · rw [he]
        rfl
    · rw [readResponseLoop_overrun hroom hread ht hlong]
      rfl
  rw [events_of_received htrace]
  simp

/-- With all transfers successful, the last report written is the reset, unless the key's answers
end the call in its read mode. -/
theorem ykReadResponseFromKey_resets_iff (H : Host σ) (slot : UInt8)
    {flags bufsize expectBytes : UInt32} (h7 : 7 ≤ bufsize.toNat) {w : World σ}
    {idle : List Report} {r₀ : Report} {d : σ} (hstart : Streams H flags w.dev idle r₀ [] d)
    (hok : ∀ e ∈ events (ykReadResponseFromKey H slot flags bufsize expectBytes) w,
      e.succeeded = true) :
    (Proc.Returns (ykReadResponseFromKey H slot flags bufsize expectBytes) w
        ∧ (writes (events (ykReadResponseFromKey H slot flags bufsize expectBytes) w)).getLast?
          = some dummyReport)
      ↔ ¬ LeavesReadMode H bufsize.toNat expectBytes.toNat r₀ d := by
  refine ⟨?_, fun h => ?_⟩
  · rintro ⟨-, hlast⟩ h
    rw [no_writes_of_leavesReadMode h7 hstart h] at hlast
    simp at hlast
  obtain ⟨rs, e, res, w', hdata, hserve, hfit, hexit, hrun⟩ :=
    ykReadResponseFromKey_exits_of_streams slot expectBytes h7 hstart
  have hreset : ∀ (u : World σ) {tail : List Event}, res ≠ .fault → res ≠ .diverge →
      w'.trace = (reset H u).trace → u.trace = (received w idle r₀ rs e).trace ++ tail →
      Proc.Returns (ykReadResponseFromKey H slot flags bufsize expectBytes) w
        ∧ (writes (events (ykReadResponseFromKey H slot flags bufsize expectBytes) w)).getLast?
          = some dummyReport := fun u tail hfault hdiverge hw' hu =>
    ⟨by simp [Proc.Returns, hrun, hfault, hdiverge],
      getLast_writes_of_reset (by rw [hrun, hw']) hu⟩
  have hleaves : ∀ {t : Report} {d' : σ}, H.ykusbRead (received w idle r₀ rs e).dev = (.ok t, d') →
      room bufsize.toNat (r₀ :: rs).length →
      (isLast t = true ∧ ¬ Verified H bufsize.toNat expectBytes.toNat (r₀ :: rs)
        ∨ isData t = true ∧ bufsize.toNat < 7 * (r₀ :: rs).length + 7) →
      False := fun hread hroom ht =>
    h ⟨rs, _, _, hdata, Backend.serves_append.2 ⟨e, hserve, _, hread, rfl⟩, hroom, ht⟩
  cases hexit with
  | full hroom => exact hreset _ (by simp) (by simp) rfl (List.append_nil _).symm
  | unread hroom hread =>
    have htrace : (ykReadResponseFromKey H slot flags bufsize expectBytes w).2.trace
        = (received w idle r₀ rs e).trace ++ [.read none] := by rw [hrun]
    rw [events_of_received htrace] at hok
    simpa using hok (.read none) (by simp)
  | accepted hroom hread ht hv => exact hreset (consumed _ _ _) (by simp) (by simp) rfl rfl
  | rejected hroom hread ht hv => exact (hleaves hread hroom (.inl ⟨ht, hv⟩)).elim
  | overread hroom hread ht hv _ => exact (hleaves hread hroom (.inl ⟨ht, hv⟩)).elim
  | cutShort hroom hread ht => exact hreset (consumed _ _ _) (by simp) (by simp) rfl rfl
  | overrun hroom hread ht hlong => exact (hleaves hread hroom (.inr ⟨ht, hlong⟩)).elim

open ScriptedKey in
theorem ykReadResponseFromKey_resets_iff_ended :
    let run := ykReadResponseFromKey (host .little crc16) 0 0 16 4
    let w := session [statusReport 0x40, statusReport 0x40]
    (Proc.Returns run w ∧ (writes (events run w)).getLast? = some dummyReport)
      ↔ ¬ LeavesReadMode (host .little crc16) 16 4 (statusReport 0x40)
        ⟨[], [statusReport 0x40]⟩ :=
  have hstart : Streams (host .little crc16) 0 ⟨[], [statusReport 0x40, statusReport 0x40]⟩ []
      (statusReport 0x40) [] ⟨[], [statusReport 0x40]⟩ :=
    ⟨by decide, by decide, by simp, _, rfl, rfl⟩
  ykReadResponseFromKey_resets_iff (host .little crc16) 0 (by decide) hstart (by decide +kernel)

open ScriptedKey in
/-- A response of one part that ends with a wrong checksum: the key was seen to respond, no
transfer failed, and nothing was written. -/
theorem ykReadResponseFromKey_reset_missing :
    let run := ykReadResponseFromKey (host .little crc16) 0 0 16 4
    let w := session [statusReport 0x40, statusReport 0x40]
    (reads (events run w)).any isPending = true
      ∧ (∀ e ∈ events run w, e.succeeded = true)
      ∧ (run w).1 = .fail ∧ (run w).2.ykErrno = some .ECHECKSUM
      ∧ (writes (events run w)).getLast? ≠ some dummyReport := by
  decide +kernel

/-! ## What is accepted is whole -/

/-- The call read reports that are not pending, then a response of the parts that `n` bytes and
their checksum take, and then the report that ends it; and what it put together is in `buf`. -/
def WholeResponse (H : Host σ) (n bufsize : ℕ) (t : List Event) (buf : List UInt8)
    (bytesRead : ℕ) : Prop :=
  ∃ (idle : List Report) (r₀ : Report) (rs : List Report) (last : Report),
    reads t = idle ++ r₀ :: rs ++ [last]
      ∧ (∀ x ∈ idle, isPending x = false)
      ∧ isPending r₀ = true
      ∧ (∀ r ∈ rs, isPending r = true ∧ sequenceNumber r ≠ 0)
      ∧ isPending last = true ∧ sequenceNumber last = 0
      ∧ (r₀ :: rs).length = (n + 8) / 7
      ∧ bytesRead = 7 * ((n + 8) / 7)
      ∧ buf = (r₀ :: rs).flatMap Report.data ++ List.replicate (bufsize - bytesRead) 0
      ∧ H.yubikeyCrc16 (buf.take (n + 2)) = ykCrcOkResidual

theorem not_pending_of_outlasts {flags : UInt32} {idle : List Report}
    (h : outlasts flags true respPendingFlag 1 0 1000 false idle = true) :
    ∀ x ∈ idle, isPending x = false := by
  intro x hx
  rw [← statusMet_pending]
  exact not_met_of_outlasts h x hx

/-- The call from `w` returned 1 with `buf`, which holds a whole response. -/
structure Accepted (H : Host σ) (slot : UInt8) (flags bufsize expectBytes : UInt32)
    (w : World σ) (buf : List UInt8) (bytesRead : ℕ) (w' : World σ) : Prop where
  run : ykReadResponseFromKey H slot flags bufsize expectBytes w = (.ok (buf, bytesRead), w')
  whole : WholeResponse H expectBytes.toNat bufsize.toNat
    (events (ykReadResponseFromKey H slot flags bufsize expectBytes) w) buf bytesRead

theorem ykReadResponseFromKey_whole (H : Host σ) (slot : UInt8) (flags bufsize expectBytes : UInt32)
    (hn : 1 ≤ expectBytes.toNat) (hbuf : expectBytes.toNat + 9 ≤ bufsize.toNat) (w : World σ) :
    (∃ buf bytesRead w', Accepted H slot flags bufsize expectBytes w buf bytesRead w')
      ∨ (∃ w', ykReadResponseFromKey H slot flags bufsize expectBytes w = (.fail, w'))
      ∨ 2 ^ 32 - 3 ≤ bufsize.toNat
        ∧ ∃ w', ykReadResponseFromKey H slot flags bufsize expectBytes w = (.fault, w') := by
  have hlt := bufsize.toNat_lt
  have hexpect : u32 (expectBytes.toNat + 2) = expectBytes.toNat + 2 :=
    Nat.mod_eq_of_lt (by omega)
  have h7 : 7 ≤ bufsize.toNat := by omega
  rcases ykReadResponseFromKey_exits H slot flags expectBytes h7 w with
    ⟨w', -, hrun⟩ | ⟨idle, r₀, rs, d, res, w', hstream, hfit, hexit, hrun⟩
  · exact .inr (.inl ⟨w', hrun⟩)
  cases hexit with
  | full hroom => exact .inr (.inl ⟨_, hrun⟩)
  | unread hroom hread => exact .inr (.inl ⟨_, hrun⟩)
  | @accepted last e hroom hread ht hv =>
    refine .inl ⟨_, _, _, hrun, idle, r₀, rs, last, ?_, not_pending_of_outlasts hstream.waits,
      hstream.pending, fun r hr => isData_iff.1 (hstream.data r hr), (isLast_iff.1 ht).1,
      (isLast_iff.1 ht).2, ?_⟩
    · obtain ⟨ok, hreset⟩ := reset_trace H (consumed (received w idle r₀ rs d) [last] e)
      have htrace : (ykReadResponseFromKey H slot flags bufsize expectBytes w).2.trace
          = (received w idle r₀ rs d).trace ++ [.read (some last), .write dummyReport ok] := by
        rw [hrun, hreset]
        simp [consumed]
      rw [events_of_received htrace]
      simp
    · obtain hzero | ⟨-, hcrc, hsize⟩ := hv
      · omega
      rw [hexpect] at hcrc hsize
      rw [roundUp7_eq (by omega), show expectBytes.toNat + 2 + 6 = expectBytes.toNat + 8 by omega]
        at hsize
      exact ⟨by omega, hsize, rfl, hcrc⟩
  | rejected hroom hread ht hv => exact .inr (.inl ⟨_, hrun⟩)
  | overread hroom hread ht hv hlong => omega
  | cutShort hroom hread ht => exact .inr (.inl ⟨_, hrun⟩)
  | overrun hroom hread ht hlong =>
    exact .inr (.inr ⟨overrun_large hlt hroom hlong, _, hrun⟩)

theorem ykGetSerial_whole (H : Host σ) (slot : UInt8) (flags : UInt32) (w : World σ) :
    (∃ serial w', ykGetSerial H slot flags w = (.ok serial, w')
        ∧ ∃ w₁ buf bytesRead,
          ykWriteToKey H slotDeviceSerial (List.replicate 16 0) 0 w = (.ok (), w₁)
            ∧ Accepted H slot flags 16 4 w₁ buf bytesRead w')
      ∨ ∃ w', ykGetSerial H slot flags w = (.fail, w') := by
  rcases ykWriteToKey_returns (H := H) slotDeviceSerial (n := 0) (by decide)
    (Nat.zero_le (List.replicate 16 0).length) w with ⟨w₁, hwrite⟩ | ⟨w₁, hwrite⟩
  swap
  · exact .inr ⟨w₁, Proc.bind_fail hwrite⟩
  rcases ykReadResponseFromKey_whole H slot flags 16 4 (by decide) (by decide) w₁ with
    ⟨buf, k, w₂, hread⟩ | ⟨w₂, hread⟩ | ⟨h, -⟩
  · exact .inl ⟨_, w₂, (Proc.bind_ok hwrite).trans (Proc.bind_ok hread.run), w₁, buf, k, hwrite,
      hread⟩
  · exact .inr ⟨w₂, (Proc.bind_ok hwrite).trans (Proc.bind_fail hread)⟩
  · exact absurd h (by decide)

theorem ykChallengeResponse_whole (H : Host σ) (ykCmd : UInt8) (mayBlock : Bool)
    {challengeLen responseLen n : UInt32} {challenge : List UInt8}
    (hcmd : chalRespBytes ykCmd = some n) (hchal : challengeLen.toNat ≤ challenge.length)
    (hbuf : n.toNat + 9 ≤ responseLen.toNat) (w : World σ) :
    let run := ykChallengeResponse H ykCmd mayBlock challengeLen challenge responseLen w
    (∃ response w', run = (.ok response, w')
        ∧ ∃ w₁ bytesRead,
          ykWriteToKey H ykCmd challenge (Int32.ofNat challengeLen.toNat) w = (.ok (), w₁)
            ∧ Accepted H ykCmd (if mayBlock then ykFlagMayblock else 0) responseLen n w₁
              response bytesRead w')
      ∨ (∃ w', run = (.fail, w'))
      ∨ 2 ^ 32 - 3 ≤ responseLen.toNat ∧ ∃ w', run = (.fault, w') := by
  have hn : 1 ≤ n.toNat := by
    unfold chalRespBytes at hcmd
    split_ifs at hcmd <;> cases hcmd <;> decide
  simp only [ykChallengeResponse, hcmd]
  rcases ykWriteToKey_returns (H := H) ykCmd challengeLen.toNat_lt hchal w with
    ⟨w₁, hwrite⟩ | ⟨w₁, hwrite⟩
  swap
  · exact .inr (.inl ⟨w₁, Proc.bind_fail hwrite⟩)
  rcases ykReadResponseFromKey_whole H ykCmd (if mayBlock then ykFlagMayblock else 0) responseLen n
    hn hbuf w₁ with ⟨buf, k, w₂, hread⟩ | ⟨w₂, hread⟩ | ⟨h, w₂, hread⟩
  · exact .inl ⟨_, w₂, (Proc.bind_ok hwrite).trans (Proc.bind_ok hread.run), w₁, k, hwrite, hread⟩
  · exact .inr (.inl ⟨w₂, (Proc.bind_ok hwrite).trans (Proc.bind_fail hread)⟩)
  · exact .inr (.inr ⟨h, w₂, (Proc.bind_ok hwrite).trans (Proc.bind_fault hread)⟩)

/-- Every call accepts a whole response or returns 0. The one other end is writing past one of
the largest buffers. -/
theorem responses_whole (H : Host σ) (w : World σ) :
    (∀ (slot : UInt8) (flags bufsize expectBytes : UInt32), 1 ≤ expectBytes.toNat →
      expectBytes.toNat + 9 ≤ bufsize.toNat →
      let run := ykReadResponseFromKey H slot flags bufsize expectBytes w
      (∃ buf bytesRead w', Accepted H slot flags bufsize expectBytes w buf bytesRead w')
        ∨ (∃ w', run = (.fail, w'))
        ∨ 2 ^ 32 - 3 ≤ bufsize.toNat ∧ ∃ w', run = (.fault, w'))
      ∧ (∀ (slot : UInt8) (flags : UInt32),
        let run := ykGetSerial H slot flags w
        (∃ serial w', run = (.ok serial, w')
            ∧ ∃ w₁ buf bytesRead,
              ykWriteToKey H slotDeviceSerial (List.replicate 16 0) 0 w = (.ok (), w₁)
                ∧ Accepted H slot flags 16 4 w₁ buf bytesRead w')
          ∨ ∃ w', run = (.fail, w'))
      ∧ ∀ (ykCmd : UInt8) (mayBlock : Bool) (challengeLen responseLen n : UInt32)
        (challenge : List UInt8), chalRespBytes ykCmd = some n →
        challengeLen.toNat ≤ challenge.length → n.toNat + 9 ≤ responseLen.toNat →
        let run := ykChallengeResponse H ykCmd mayBlock challengeLen challenge responseLen w
        (∃ response w', run = (.ok response, w')
            ∧ ∃ w₁ bytesRead,
              ykWriteToKey H ykCmd challenge (Int32.ofNat challengeLen.toNat) w = (.ok (), w₁)
                ∧ Accepted H ykCmd (if mayBlock then ykFlagMayblock else 0) responseLen n w₁
                  response bytesRead w')
          ∨ (∃ w', run = (.fail, w'))
          ∨ 2 ^ 32 - 3 ≤ responseLen.toNat ∧ ∃ w', run = (.fault, w') :=
  ⟨fun slot flags bufsize expectBytes hn hbuf =>
      ykReadResponseFromKey_whole H slot flags bufsize expectBytes hn hbuf w,
    fun slot flags => ykGetSerial_whole H slot flags w,
    fun ykCmd mayBlock _ _ _ _ hcmd hchal hbuf =>
      ykChallengeResponse_whole H ykCmd mayBlock hcmd hchal hbuf w⟩

open ScriptedKey in
theorem responses_whole_serial :
    ∃ buf bytesRead w', Accepted (host .little crc16) 0 0 16 4
      (session (responseReports [1, 2, 3, 4] ++ [statusReport 0x40])) buf bytesRead w' := by
  rcases (responses_whole (host .little crc16)
    (session (responseReports [1, 2, 3, 4] ++ [statusReport 0x40]))).1 0 0 16 4 (by decide)
      (by decide) with h | ⟨w', h⟩ | ⟨h, -⟩
  · exact h
  · have hok : (ykReadResponseFromKey (host .little crc16) 0 0 16 4
        (session (responseReports [1, 2, 3, 4] ++ [statusReport 0x40]))).1 ≠ .fail := by
      decide +kernel
    exact absurd (by rw [h]) hok
  · exact absurd h (by decide)

end YkPers
