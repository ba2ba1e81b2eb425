import YkPers.Handshake
import YkPers.Proofs.Wait
import YkPers.Checksum
import YkPers.ScriptedKey

/-!
# Writing a frame

A frame of 70 bytes is ten parts of seven, sent sparsely (`Buffer.encode`). Whatever the key
answers, the log of a write is a run of the handshake's automaton over the reports of the frame
(`ykWriteToKey_sends`), so what holds over the automaton's runs holds of the function
(`ykWriteToKey_handshake`). A device that puts the parts back in place then holds the frame
(`ykWriteToKey_transports`).
-/

namespace YkPers

variable {σ : Type} {H : Host σ}

/-- The parts of the frame that are sent, each with its sequence number. -/
def frameParts (frame : List UInt8) : List (ℕ × List UInt8) := Buffer.encode 0 7 10 frame

/-- The one sequence of reports that brings the frame to the key. -/
def canonicalReports (frame : List UInt8) : List Report :=
  (frameParts frame).map fun p => partReport p.1 p.2

section Reports

theorem status_partReport {seq : ℕ} {part : List UInt8} (h : part.length = 7) :
    (partReport seq part).status = UInt8.ofNat seq ||| slotWriteFlag :=
  Report.status_ofBytes h _

theorem data_partReport {seq : ℕ} {part : List UInt8} (h : part.length = 7) :
    (partReport seq part).data = part :=
  Report.data_ofBytes h _

@[simp] theorem status_dummyReport : dummyReport.status = dummyReportWrite := rfl

theorem toNat_seqStatus {s : ℕ} (hs : s < 10) :
    (UInt8.ofNat s ||| slotWriteFlag).toNat = s + 128 := by
  have h : ∀ s : Fin 10, (UInt8.ofNat s ||| slotWriteFlag).toNat = s.val + 128 := by decide
  exact h ⟨s, hs⟩

theorem mem_frameParts {frame : List UInt8} (hf : frame.length = 70) {p : ℕ × List UInt8}
    (hp : p ∈ frameParts frame) : p.1 < 10 ∧ p.2.length = 7 := by
  simp only [frameParts, Buffer.encode, List.mem_map, List.mem_filter, List.mem_range] at hp
  obtain ⟨s, ⟨hs, -⟩, rfl⟩ := hp
  exact ⟨hs, Buffer.length_part (k := 10) hf hs⟩

theorem dummyReport_notMem {frame : List UInt8} (hf : frame.length = 70) :
    dummyReport ∉ canonicalReports frame := by
  intro h
  obtain ⟨p, hp, h⟩ := List.mem_map.1 h
  obtain ⟨hs, hlen⟩ := mem_frameParts hf hp
  have hstatus := congrArg (UInt8.toNat ∘ Report.status) h
  simp only [Function.comp, status_partReport hlen, status_dummyReport, toNat_seqStatus hs]
    at hstatus
  have : dummyReportWrite.toNat = 143 := rfl
  omega

theorem frameParts_pairwise (frame : List UInt8) :
    (frameParts frame).Pairwise fun p q => p.1 < q.1 :=
  (List.pairwise_lt_range.filter _).map _ fun _ _ h => h

theorem canonicalReports_nodup {frame : List UInt8} (hf : frame.length = 70) :
    (canonicalReports frame).Nodup := by
  refine List.pairwise_map.2 ((frameParts_pairwise frame).imp_of_mem ?_)
  intro p q hp hq hlt h
  obtain ⟨hp1, hp2⟩ := mem_frameParts hf hp
  obtain ⟨hq1, hq2⟩ := mem_frameParts hf hq
  have hstatus := congrArg (UInt8.toNat ∘ Report.status) h
  simp only [Function.comp, status_partReport hp2, status_partReport hq2, toNat_seqStatus hp1,
    toNat_seqStatus hq1] at hstatus
  omega

end Reports

/-! ## The loop over the parts -/

/-- The parts from number `seq` on that are sent. -/
def partsFrom (frame : List UInt8) (seq left : ℕ) : List (ℕ × List UInt8) :=
  ((List.range' seq left).filter (Buffer.kept 0 7 10 frame)).map fun s =>
    (s, Buffer.part 7 frame s)

theorem partsFrom_zero (frame : List UInt8) : partsFrom frame 0 10 = frameParts frame := by
  simp [partsFrom, frameParts, Buffer.encode, List.range_eq_range']

theorem partsFrom_skip {frame : List UInt8} {seq left : ℕ}
    (h : Buffer.kept 0 7 10 frame seq = false) :
    partsFrom frame seq (left + 1) = partsFrom frame (seq + 1) left := by
  simp [partsFrom, List.range'_succ, h]

theorem partsFrom_keep {frame : List UInt8} {seq left : ℕ}
    (h : Buffer.kept 0 7 10 frame seq = true) :
    partsFrom frame seq (left + 1)
      = (seq, Buffer.part 7 frame seq) :: partsFrom frame (seq + 1) left := by
  simp [partsFrom, List.range'_succ, h]

theorem skipped_eq_not_kept (frame : List UInt8) {seq left : ℕ} (hs : seq + (left + 1) = 10) :
    ((Buffer.part 7 frame seq).all (· == 0) && 0 < seq && 0 < left)
      = !Buffer.kept 0 7 10 frame seq := by
  have hfirst : decide (0 < seq) = !decide (seq = 0) := by
    rw [← decide_not]
    exact decide_eq_decide.2 Nat.pos_iff_ne_zero
  have hlast : decide (0 < left) = !decide (seq + 1 = 10) := by
    rw [← decide_not]
    exact decide_eq_decide.2 (by omega)
  have hblank : (Buffer.part 7 frame seq).all (· == 0)
      = !(Buffer.part 7 frame seq).any fun x => decide (x ≠ 0) := by
    rw [List.not_any_eq_all_not]
    congr 1
    funext x
    simp [beq_eq_decide]
  rw [hfirst, hlast, hblank]
  unfold Buffer.kept
  cases decide (seq = 0) <;> cases decide (seq + 1 = 10) <;> simp

section Loop

variable (slot : UInt8) (frame : List UInt8) {seq left : ℕ}

theorem drop_part :
    (frame.drop (7 * seq)).drop (featureRptSize - 1) = frame.drop (7 * (seq + 1)) := by
  rw [List.drop_drop, Nat.mul_succ]
  rfl

theorem sendParts_skip (hs : seq + (left + 1) = 10) (hk : Buffer.kept 0 7 10 frame seq = false) :
    sendParts H slot (left + 1) seq (frame.drop (7 * seq))
      = sendParts H slot left (seq + 1) (frame.drop (7 * (seq + 1))) := by
  have h := skipped_eq_not_kept frame hs
  rw [hk] at h
  rw [sendParts, drop_part]
  exact if_pos h

theorem sendParts_keep (hs : seq + (left + 1) = 10) (hk : Buffer.kept 0 7 10 frame seq = true) :
    sendParts H slot (left + 1) seq (frame.drop (7 * seq)) = (do
      let _ ← ykWaitForKeyStatus H slot 0 waitForWriteFlag false slotWriteFlag
      H.write (partReport seq (Buffer.part 7 frame seq))
      sendParts H slot left (seq + 1) (frame.drop (7 * (seq + 1)))) := by
  have h := skipped_eq_not_kept frame hs
  rw [hk] at h
  rw [sendParts, drop_part]
  exact if_neg (ne_true_of_eq_false h)

end Loop

/-! ## The log is a run of the automaton -/

section Simulation

variable {rs : List Report}

/-- What `x` logs from `w` is a run of the automaton from `s`; `x` succeeds if and only if the
run gives all the reports, and fails otherwise. -/
def Sends (x : Yk σ Unit) (w : World σ) (s : Sender rs) : Prop :=
  ∃ (t : List Event) (s' : Sender rs), (x w).2.trace = w.trace ++ t
    ∧ s.run dummyReport t = some s'
    ∧ ((x w).1 = .ok () ∧ s'.taken = rs.length ∧ s'.phase = .polling
      ∨ (x w).1 = .fail ∧ s'.taken < rs.length)

theorem Sends.prepend {x y : Yk σ Unit} {w w₁ : World σ} {s s₁ : Sender rs} {t : List Event}
    (hxy : x w = y w₁) (hw : w₁.trace = w.trace ++ t) (hs : s.run dummyReport t = some s₁)
    (h : Sends y w₁ s₁) : Sends x w s := by
  obtain ⟨u, s', hu, hrun, hend⟩ := h
  refine ⟨t ++ u, s', ?_, Sender.run_append.2 ⟨s₁, hs, hrun⟩, ?_⟩
  · rw [hxy, hu, hw, List.append_assoc]
  · rwa [hxy]

variable {s : Sender rs} (hp : s.phase = .polling)

include hp

theorem run_pollTrace_idle (t : List Event) : ∀ {v : ℕ} {idle : List Report},
    (∀ x ∈ idle, isReady x = false) →
      s.run dummyReport (pollTrace v idle ++ t) = s.run dummyReport t
  | _, [], _ => rfl
  | v, x :: idle, h => by
    have hx := h x List.mem_cons_self
    simp only [pollTrace, List.cons_append, Sender.run_sleep_read hp, hx, Bool.false_eq_true,
      if_false]
    exact run_pollTrace_idle t fun y hy => h y (List.mem_cons_of_mem _ hy)

theorem run_of_waitMet {flags : UInt32} {v m n : ℕ} {b : Bool} {w w' : World σ} {r : Report}
    (h : WaitMet H flags false slotWriteFlag v m n b w r w') :
    ∃ t, w'.trace = w.trace ++ t ∧ s.run dummyReport t = some (s.inPhase .ready) := by
  obtain ⟨idle, hidle, hmet, -, hw⟩ := h
  refine ⟨pollTrace v (idle ++ [r]), by rw [hw]; rfl, ?_⟩
  have hr : isReady r = true := hmet
  rw [pollTrace_append, run_pollTrace_idle hp _ (not_met_of_outlasts hidle),
    Sender.run_sleep_read hp, hr, if_pos rfl, Sender.run_nil]

theorem run_of_waitFailed {v : ℕ} {w w' : World σ} (h : WaitFailed false slotWriteFlag v w w') :
    ∃ t s', w'.trace = w.trace ++ t ∧ s.run dummyReport t = some s' ∧ s'.taken = s.taken := by
  obtain ⟨idle, tail, hidle, hw, htail⟩ := h
  have hrun := run_pollTrace_idle hp tail (v := v) hidle
  rw [List.append_assoc] at hw
  rcases htail with rfl | ⟨ms, rfl⟩ | ⟨ok, rfl⟩
  · exact ⟨_, s, hw, hrun, rfl⟩
  · exact ⟨_, s.inPhase .closed, hw, by simp [hrun, Sender.step, hp], rfl⟩
  · exact ⟨_, s.inPhase .closed, hw, by simp [hrun, Sender.step, hp], rfl⟩

end Simulation

theorem sendParts_sends (slot : UInt8) (frame : List UInt8) :
    ∀ (left : ℕ) {seq : ℕ} {w : World σ} {s : Sender (canonicalReports frame)},
      seq + left = 10 → s.phase = .polling →
      (canonicalReports frame).drop s.taken
        = (partsFrom frame seq left).map (fun p => partReport p.1 p.2) →
      Sends (sendParts H slot left seq (frame.drop (7 * seq))) w s
  | 0, seq, w, s, _, hp, hrest => by
    have hlen : (canonicalReports frame).length ≤ s.taken := List.drop_eq_nil_iff.1 hrest
    refine ⟨[], s, by simp [sendParts], rfl, .inl ⟨rfl, ?_, hp⟩⟩
    have := s.taken_le
    omega
  | left + 1, seq, w, s, hs, hp, hrest => by
    rcases hk : Buffer.kept 0 7 10 frame seq with _ | _
    · rw [sendParts_skip slot frame hs hk]
      rw [partsFrom_skip hk] at hrest
      exact sendParts_sends slot frame left (by omega) hp hrest
    rw [sendParts_keep slot frame hs hk]
    rw [partsFrom_keep hk, List.map_cons] at hrest
    have hlt : s.taken < (canonicalReports frame).length := by
      have := congrArg List.length hrest
      simp only [List.length_drop, List.length_cons] at this
      omega
    rw [List.drop_eq_getElem_cons hlt, List.cons.injEq] at hrest
    obtain ⟨hnext, hrest⟩ := hrest
    have hnext : (canonicalReports frame)[s.taken]?
        = some (partReport seq (Buffer.part 7 frame seq)) := by
      rw [List.getElem?_eq_getElem hlt, hnext]
    rcases (ykWaitForKeyStatus_terminates H slot 0 false slotWriteFlag (m := waitForWriteFlag)
      (by decide) w).cases with ⟨r, w₁, hwait⟩ | ⟨w₁, hwait⟩
    swap
    · -- the wait gave up
      obtain ⟨t, s', hw, hrun, htaken⟩ := run_of_waitFailed hp (ykWaitForKeyStatus_fail hwait)
      rw [Sends, Proc.bind_fail hwait]
      exact ⟨t, s', hw, hrun, .inr ⟨rfl, by omega⟩⟩
    obtain ⟨t, hw, hrun⟩ := run_of_waitMet hp (ykWaitForKeyStatus_ok hwait)
    refine Sends.prepend (Proc.bind_ok hwait) hw hrun ?_
    rcases hwrite : H.ykusbWrite (partReport seq (Buffer.part 7 frame seq)) w₁.dev with
      ⟨e | u, d⟩
    · -- the key did not take the report
      rw [Sends, Proc.bind_fail (Backend.write_of_error hwrite)]
      exact ⟨_, s.inPhase .closed, rfl, by simp [Sender.step, hnext], .inr ⟨rfl, hlt⟩⟩
    · have hgive : (s.inPhase .ready).run dummyReport
          [.write (partReport seq (Buffer.part 7 frame seq)) true] = some (s.give hlt) := by
        simp [Sender.step, hnext]
      exact Sends.prepend (Proc.bind_ok (Backend.write_of_ok hwrite)) rfl hgive
        (sendParts_sends slot frame left (by omega) rfl hrest)

/-! ## The call -/

/-- What is to reach the key: the payload with its padding, the slot and the checksum. -/
def wireFrame (crc16 : List UInt8 → UInt16) (slot : UInt8) (payload : List UInt8) : List UInt8 :=
  let block := payload ++ List.replicate (slotDataSize - payload.length) 0
  block ++ [slot] ++ Endian.little.bytes16 (crc16 block) ++ [0, 0, 0]

theorem length_wireFrame (crc16 : List UInt8 → UInt16) (slot : UInt8) {payload : List UInt8}
    (h : payload.length ≤ slotDataSize) : (wireFrame crc16 slot payload).length = 70 := by
  simp only [wireFrame, Endian.bytes16, List.length_append, List.length_replicate,
    List.length_cons, List.length_nil, slotDataSize] at h ⊢
  omega

/-- The frame in memory is the one to be sent, on either host. -/
theorem bytes_ykFrame (slot : UInt8) {payload : List UInt8} (h : payload.length ≤ slotDataSize) :
    (ykFrame H slot payload).bytes H.endian = wireFrame H.yubikeyCrc16 slot payload := by
  have hfiller : (bytesVector 3 []).toList = [0, 0, 0] := rfl
  simp only [YkFrame.bytes, ykFrame, bytes16_ykEndianSwap16, toList_bytesVector h, hfiller,
    wireFrame]

theorem ykWriteToKey_eq (slot : UInt8) {buf : List UInt8} {n : ℕ} (hn : n ≤ slotDataSize)
    (hbuf : n ≤ buf.length) :
    ykWriteToKey H slot buf (Int32.ofNat n)
      = sendParts H slot 10 0 (wireFrame H.yubikeyCrc16 slot (buf.take n)) := by
  have hsize : sizeT (Int32.ofNat n) = n := sizeT_ofNat (Nat.lt_of_le_of_lt hn (by decide))
  have hlen : (buf.take n).length ≤ slotDataSize := by
    rw [List.length_take]
    omega
  funext w
  rw [ykWriteToKey, hsize, if_neg (Nat.not_lt.2 hn), loadBytes, if_pos hbuf, Proc.pure_bind_run,
    bytes_ykFrame slot hlen, length_wireFrame _ _ hlen]
  rfl

theorem ykWriteToKey_wrongSize (slot : UInt8) (buf : List UInt8) {bufcount : Int32}
    (h : bufcount < 0 ∨ 64 < bufcount) (w : World σ) :
    ykWriteToKey H slot buf bufcount w = (.fail, { w with ykErrno := some .EWRONGSIZ }) := by
  rw [ykWriteToKey, if_pos (sizeT_of_outside (by decide) h), failWith_run]

/-- Whatever the key answers, writing a frame follows the handshake. -/
theorem ykWriteToKey_sends (slot : UInt8) {buf : List UInt8} {n : ℕ} (hn : n ≤ slotDataSize)
    (hbuf : n ≤ buf.length) (w : World σ) :
    Sends (ykWriteToKey H slot buf (Int32.ofNat n)) w
      (Sender.init (canonicalReports (wireFrame H.yubikeyCrc16 slot (buf.take n)))) := by
  rw [ykWriteToKey_eq slot hn hbuf]
  refine sendParts_sends slot _ 10 rfl rfl ?_
  rw [partsFrom_zero]
  rfl

theorem ykWriteToKey_returns (slot : UInt8) {buf : List UInt8} {n : ℕ} (hn : n < 2 ^ 32)
    (hbuf : n ≤ buf.length) (w : World σ) :
    (∃ w', ykWriteToKey H slot buf (Int32.ofNat n) w = (.ok (), w'))
      ∨ ∃ w', ykWriteToKey H slot buf (Int32.ofNat n) w = (.fail, w') := by
  by_cases h64 : n ≤ slotDataSize
  · obtain ⟨t, s', -, -, ⟨hok, -⟩ | ⟨hfail, -⟩⟩ := ykWriteToKey_sends (H := H) slot h64 hbuf w
    · exact .inl ⟨_, Proc.run_eq hok⟩
    · exact .inr ⟨_, Proc.run_eq hfail⟩
  · refine .inr ⟨{ w with ykErrno := some .EWRONGSIZ }, ?_⟩
    rw [ykWriteToKey, if_pos (lt_sizeT_ofNat (by decide) (by omega) hn), failWith_run]

/-- Each report of the frame is written right after a read that found the key ready. Those the
key takes are a prefix of the frame's, all of them if and only if the call succeeds. The one
other report is the reset, and nothing is written after it. -/
theorem ykWriteToKey_handshake (H : Host σ) (slot : UInt8) (buf : List UInt8) {n : ℕ}
    (hn : n ≤ slotDataSize) (hbuf : n ≤ buf.length) (w : World σ) :
    let run := ykWriteToKey H slot buf (Int32.ofNat n)
    let t := events run w
    let rs := canonicalReports (wireFrame H.yubikeyCrc16 slot (buf.take n))
    let taken := (sent t).filter (· ≠ dummyReport)
    (∀ i r ok, t[i]? = some (.write r ok) → r ≠ dummyReport →
        ∃ j q, i = j + 1 ∧ t[j]? = some (.read (some q)) ∧ q.status &&& slotWriteFlag = 0)
      ∧ taken <+: rs ∧ rs.Nodup ∧ dummyReport ∉ rs
      ∧ (∀ r ∈ writes t, r ∈ rs ∨ r = dummyReport)
      ∧ (∀ i ok, t[i]? = some (.write dummyReport ok) → i + 1 = t.length)
      ∧ ((run w).1 = .ok () ∧ taken = rs ∨ (run w).1 = .fail ∧ taken ≠ rs) := by
  intro run t rs taken
  have hframe : (wireFrame H.yubikeyCrc16 slot (buf.take n)).length = 70 :=
    length_wireFrame _ _ (by rw [List.length_take]; omega)
  have hab : dummyReport ∉ rs := dummyReport_notMem hframe
  obtain ⟨u, s', hu, hrun, hend⟩ := ykWriteToKey_sends (H := H) slot hn hbuf w
  obtain rfl : t = u := events_of_run hu
  have htaken : taken = rs.take s'.taken := (Sender.run_taken hab hrun).symm
  refine ⟨?_, ?_, canonicalReports_nodup hframe, hab, Sender.run_writes hrun, ?_, ?_⟩
  · intro i r ok hi hr
    obtain ⟨j, q, hij, hj, hq⟩ := Sender.write_after_ready hrun hi hr
    exact ⟨j, q, hij, hj, by simpa [isReady] using hq⟩
  · rw [htaken]
    exact List.take_prefix _ _
  · exact fun i ok hi => (Sender.abort_is_last hab hrun hi).1
  · rw [htaken]
    rcases hend with ⟨hok, hall, -⟩ | ⟨hfail, hlt⟩
    · exact .inl ⟨hok, by rw [hall, List.take_length]⟩
    · refine .inr ⟨hfail, fun h => ?_⟩
      have hlen := congrArg List.length h
      rw [List.length_take, Nat.min_eq_left s'.taken_le] at hlen
      exact Nat.ne_of_lt hlt hlen

theorem ykWriteToKey_handshake_rejected :
    let run := ykWriteToKey (ScriptedKey.host .little crc16) 0x30 [1, 2, 3] (Int32.ofNat 3)
    let w := ScriptedKey.session [ScriptedKey.statusReport 0x80, ScriptedKey.statusReport 0x20]
    (sent (events run w)).filter (· ≠ dummyReport)
      <+: canonicalReports (wireFrame crc16 0x30 [1, 2, 3]) := by
  intro run w
  exact (ykWriteToKey_handshake _ 0x30 [1, 2, 3] (n := 3) (by decide) (by decide) w).2.1

/-! ## A device that reassembles the frame -/

/-- Reading leaves the device's frame; of a report with sequence number `s` it stores the data
bytes at `7 * s`, after clearing the frame if `s` is 0. -/
structure Reassembles (B : Backend σ) (frame : σ → List UInt8) : Prop where
  read : ∀ d, frame (B.ykusbRead d).2 = frame d
  write : ∀ r d s, s < 10 → r.status = UInt8.ofNat s ||| slotWriteFlag →
    (B.ykusbWrite r d).1 = .ok () →
    frame (B.ykusbWrite r d).2
      = Buffer.store (if s = 0 then List.replicate 70 0 else frame d) (7 * s) r.data

section Reassembles

variable {frame : σ → List UInt8}

theorem Reassembles.serves {B : Backend σ} (hdev : Reassembles B frame) :
    ∀ {rs : List Report} {d d' : σ}, B.Serves d rs d' → frame d' = frame d
  | [], d, d', h => by
    rw [show d = d' from h]
  | r :: rs, d, d', h => by
    obtain ⟨e, hr, h⟩ := h
    rw [hdev.serves h, ← hdev.read d, hr]

theorem ScriptedKey.reassembles : Reassembles ScriptedKey.backend ScriptedKey.frame where
  read d := by
    rcases d with ⟨f, _ | ⟨r, rs⟩⟩ <;> rfl
  write r d s hs hr _ := by
    have hxor : ∀ s : Fin 10,
        ((UInt8.ofNat s ||| slotWriteFlag) ^^^ slotWriteFlag).toNat = s.val := by decide
    have hseq : ScriptedKey.seqOf r = s := by
      rw [ScriptedKey.seqOf, hr]
      exact hxor ⟨s, hs⟩
    simp only [ScriptedKey.backend, ScriptedKey.place, hseq, if_pos hs]

theorem sendParts_reassembled (hdev : Reassembles H.toBackend frame) (slot : UInt8)
    {f : List UInt8} (hf : f.length = 70) : ∀ (left : ℕ) {seq : ℕ} {w w' : World σ},
      seq + left = 10 → sendParts H slot left seq (f.drop (7 * seq)) w = (.ok (), w') →
      frame w'.dev = Buffer.decode 0 7 10 (frame w.dev) (partsFrom f seq left)
  | 0, seq, w, w', _, h => by
    simp only [sendParts, Proc.pure_run, Prod.mk.injEq, true_and] at h
    rw [h]
    rfl
  | left + 1, seq, w, w', hs, h => by
    rcases hk : Buffer.kept 0 7 10 f seq with _ | _
    · rw [sendParts_skip slot f hs hk] at h
      rw [partsFrom_skip hk]
      exact sendParts_reassembled hdev slot hf left (by omega) h
    rw [sendParts_keep slot f hs hk] at h
    obtain ⟨r, w₁, hwait, h⟩ := Proc.bind_eq_ok.1 h
    obtain ⟨u, w₂, hwrite, h⟩ := Proc.bind_eq_ok.1 h
    obtain ⟨idle, -, -, hserve, -⟩ := ykWaitForKeyStatus_ok hwait
    obtain ⟨hwrite, -⟩ := Backend.write_eq_ok hwrite
    have hlen : (Buffer.part 7 f seq).length = 7 := Buffer.length_part (k := 10) hf (by omega)
    have hstore := hdev.write _ w₁.dev seq (by omega) (status_partReport hlen) (by rw [hwrite])
    rw [hwrite, hdev.serves hserve, data_partReport hlen] at hstore
    rw [sendParts_reassembled hdev slot hf left (by omega) h, partsFrom_keep hk, hstore]
    rfl

/-- A write that succeeds leaves the device with the frame, blank parts included. -/
theorem ykWriteToKey_frame (hdev : Reassembles H.toBackend frame) (slot : UInt8)
    {buf : List UInt8} {n : ℕ} (hn : n ≤ slotDataSize) (hbuf : n ≤ buf.length) {w w' : World σ}
    (h : ykWriteToKey H slot buf (Int32.ofNat n) w = (.ok (), w')) :
    frame w'.dev = wireFrame H.yubikeyCrc16 slot (buf.take n) := by
  have hf : (wireFrame H.yubikeyCrc16 slot (buf.take n)).length = 70 :=
    length_wireFrame _ _ (by rw [List.length_take]; omega)
  rw [ykWriteToKey_eq slot hn hbuf] at h
  rw [sendParts_reassembled hdev slot hf 10 rfl h, partsFrom_zero, frameParts,
    Buffer.decode_encode hf (by omega)]

end Reassembles

def seqNumbers (f : List UInt8) : List ℕ := (frameParts f).map Prod.fst

theorem seqNumbers_eq (f : List UInt8) :
    seqNumbers f = (List.range 10).filter (Buffer.kept 0 7 10 f) := by
  rw [seqNumbers, frameParts, Buffer.encode, List.map_map]
  exact List.map_id _

theorem head_seqNumbers (f : List UInt8) : (seqNumbers f).head? = some 0 := by
  have h0 : Buffer.kept 0 7 10 f 0 = true := by simp [Buffer.kept]
  rw [seqNumbers_eq, List.range_succ_eq_map, List.filter_cons, if_pos h0, List.head?_cons]

theorem getLast_seqNumbers (f : List UInt8) : (seqNumbers f).getLast? = some 9 := by
  have h9 : Buffer.kept 0 7 10 f 9 = true := by simp [Buffer.kept]
  rw [seqNumbers_eq, List.range_succ, List.filter_append, List.filter_cons, if_pos h9]
  simp

theorem status_canonicalReports {f : List UInt8} (hf : f.length = 70) :
    (canonicalReports f).map Report.status
      = (seqNumbers f).map fun s => UInt8.ofNat s ||| slotWriteFlag := by
  rw [canonicalReports, seqNumbers, List.map_map, List.map_map]
  refine List.map_congr_left fun p hp => ?_
  exact status_partReport (mem_frameParts hf hp).2

/-- A write that succeeds leaves the device with the frame, though blank parts are not sent; the
numbers of the reports sent ascend from 0 to 9. A count out of range sends nothing. -/
theorem ykWriteToKey_transports (H : Host σ) {frame : σ → List UInt8}
    (hdev : Reassembles H.toBackend frame) (slot : UInt8) (buf : List UInt8) (w : World σ) :
    (∀ n ≤ slotDataSize, n ≤ buf.length → ∀ w',
      ykWriteToKey H slot buf (Int32.ofNat n) w = (.ok (), w') →
      frame w'.dev = (let block := buf.take n ++ List.replicate (64 - n) 0
          block ++ [slot] ++ Endian.little.bytes16 (H.yubikeyCrc16 block) ++ [0, 0, 0])
        ∧ ∃ seqs : List ℕ,
          (sent (events (ykWriteToKey H slot buf (Int32.ofNat n)) w)).map Report.status
              = seqs.map (fun s => UInt8.ofNat s ||| slotWriteFlag)
            ∧ seqs.Pairwise (· < ·) ∧ (∀ s ∈ seqs, s ≤ 9)
            ∧ seqs.head? = some 0 ∧ seqs.getLast? = some 9)
      ∧ ∀ bufcount : Int32, bufcount < 0 ∨ 64 < bufcount →
        ykWriteToKey H slot buf bufcount w = (.fail, { w with ykErrno := some .EWRONGSIZ }) := by
  refine ⟨fun n hn hbuf w' h => ?_, fun bufcount hcount => ykWriteToKey_wrongSize slot buf hcount w⟩
  have hlen : (buf.take n).length = n := by
    rw [List.length_take]
    omega
  have hf : (wireFrame H.yubikeyCrc16 slot (buf.take n)).length = 70 :=
    length_wireFrame _ _ (by omega)
  refine ⟨?_, seqNumbers (wireFrame H.yubikeyCrc16 slot (buf.take n)), ?_, ?_, ?_,
    head_seqNumbers _, getLast_seqNumbers _⟩
  · rw [ykWriteToKey_frame hdev slot hn hbuf h, wireFrame, hlen]
  · obtain ⟨t, s', ht, hrun, hend⟩ := ykWriteToKey_sends (H := H) slot hn hbuf w
    rw [h] at hend
    obtain ⟨-, hall, hp⟩ | ⟨hfail, -⟩ := hend
    · rw [events_of_run ht, Sender.sent_of_open (dummyReport_notMem hf) hrun (by simp [hp]), hall,
        List.take_length, status_canonicalReports hf]
    · simp at hfail
  · exact (frameParts_pairwise _).map _ fun _ _ h => h
  · intro s hs
    obtain ⟨p, hp, rfl⟩ := List.mem_map.1 hs
    have := (mem_frameParts hf hp).1
    omega

open ScriptedKey in
theorem ykWriteToKey_transports_sparse :
    ∃ w', ykWriteToKey (host .big crc16) 1 [1, 2, 3] (Int32.ofNat 3)
        (session (List.replicate 3 (statusReport 0))) = (.ok (), w')
      ∧ w'.dev.frame.take 4 = [1, 2, 3, 0] := by
  have hok : (ykWriteToKey (host .big crc16) 1 [1, 2, 3] (Int32.ofNat 3)
      (session (List.replicate 3 (statusReport 0)))).1 = .ok () := by decide +kernel
  have hrun := Proc.run_eq hok
  refine ⟨_, hrun, ?_⟩
  rw [((ykWriteToKey_transports (host .big crc16) reassembles 1 [1, 2, 3] _).1 3 (by decide)
    (by decide) _ hrun).1]
  rfl

end YkPers
