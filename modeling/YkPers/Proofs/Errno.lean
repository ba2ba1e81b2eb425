import YkPers.Proofs.Response
import YkPers.Proofs.WriteCommand

/-!
# Failures and `yk_errno`

With a backend that stores a code in `yk_errno` whenever a transfer fails, each function that
returns 0 has stored one too, but for one exit: a response that stops before its end
(`CutShort`). Each function that reads a response inherits it (`failures_set_ykErrno`).
-/

namespace YkPers

variable {σ : Type} {H : Host σ}

/-! ## The functions that always set it -/

section Loud

theorem ykGetStatus_loud (hB : H.SetsErrno) : Loud (ykGetStatus H) := by
  rintro w w' h
  rcases hr : H.ykusbRead w.dev with ⟨e | r, d⟩
  · rw [ykGetStatus_of_error hr] at h
    simp only [Prod.mk.injEq, true_and] at h
    exact h ▸ read_loud hB w _ (Backend.read_of_error hr)
  · rw [ykGetStatus_of_ok hr] at h
    simp at h

theorem sendParts_loud (hB : H.SetsErrno) (slot : UInt8) :
    ∀ (left seq : ℕ) (ptr : List UInt8), Loud (sendParts H slot left seq ptr)
  | 0, _, _ => Proc.Fails.pure ()
  | left + 1, _, _ =>
    Proc.Fails.ite (sendParts_loud hB slot left _ _)
      (Proc.Fails.bind (ykWaitForKeyStatus_loud H hB _ _ _ _ _) fun _ =>
        Proc.Fails.bind (write_loud hB _) fun _ => sendParts_loud hB slot left _ _)

theorem ykWriteToKey_loud (hB : H.SetsErrno) (slot : UInt8) (buf : List UInt8)
    (bufcount : Int32) : Loud (ykWriteToKey H slot buf bufcount) := by
  have hload : Loud (loadBytes buf (sizeT bufcount) : Yk σ _) := by
    rintro w w' h
    unfold loadBytes at h
    split_ifs at h <;> simp at h
  exact Proc.Fails.ite (failWith_loud _)
    (Proc.Fails.bind hload fun _ => sendParts_loud hB slot _ _ _)

/-- The verdict on a write comes after `yk_errno` is set. -/
theorem ykWrite_loud (hB : H.SetsErrno) (ykCmd : UInt8) (buf : List UInt8) (len : ℕ) :
    Loud (ykWrite H ykCmd buf len) := by
  refine Proc.Fails.bind (ykGetStatus_loud hB) fun before =>
    Proc.Fails.bind (ykWriteToKey_loud hB _ _ _) fun _ =>
    Proc.Fails.bind (ykWaitForKeyStatus_loud H hB _ _ _ _ _) fun _ =>
    Proc.Fails.bind (ykGetStatus_loud hB) fun after => ?_
  rintro w w' h
  rw [Proc.bind_ok (setErrno_run .EWRITEERR w)] at h
  split_ifs at h
  · simp at h
  · simp at h
  · simp only [Proc.fail_run, Prod.mk.injEq, true_and] at h
    subst h
    simp

theorem ykWriteCommand_loud (hB : H.SetsErrno) (cfg : Option YkConfig) (command : UInt8)
    (accCode : Option (Vector UInt8 accCodeSize)) : Loud (ykWriteCommand H cfg command accCode) :=
  Proc.Fails.bind (ykWrite_loud hB _ _ _) fun _ => Proc.Fails.pure _

theorem ykWriteNdef2_loud (hB : H.SetsErrno) (ndef : YkNdef) (confnum : Int) :
    Loud (ykWriteNdef2 H ndef confnum) :=
  Proc.Fails.ite (ykWrite_loud hB _ _ _)
    (Proc.Fails.ite (ykWrite_loud hB _ _ _) (failWith_loud _))

end Loud

/-! ## A response that is cut short -/

/-- From `d`, the key starts a response and, with room left in the buffer, answers with a report
that is not pending; and it takes the reset. -/
def CutShort (H : Host σ) (flags : UInt32) (N : ℕ) (d : σ) : Prop :=
  ∃ idle r₀ rs d₁ t d₂, Streams H flags d idle r₀ rs d₁ ∧ room N (r₀ :: rs).length
    ∧ H.ykusbRead d₁ = (.ok t, d₂) ∧ isPending t = false
    ∧ (H.ykusbWrite dummyReport d₂).1 = .ok ()

/-- A return of 0 from `w` leaves a code in `yk_errno`. -/
def ErrnoSet {α : Type} (x : Yk σ α) (w : World σ) : Prop :=
  ∀ w', x w = (.fail, w') → w'.ykErrno ≠ none

section Response

variable {slot : UInt8} {flags bufsize expectBytes : UInt32} {w : World σ}

/-- A response that is cut short ends with a return of 0 and `yk_errno` as it was. -/
theorem silent_of_cutShort (slot : UInt8) (expectBytes : UInt32)
    (h : CutShort H flags bufsize.toNat w.dev) :
    ∃ w', ykReadResponseFromKey H slot flags bufsize expectBytes w = (.fail, w')
      ∧ w'.ykErrno = w.ykErrno := by
  obtain ⟨idle, r₀, rs, d₁, t, d₂, hstream, hroom, hread, ht, hwrite⟩ := h
  have h7 : 7 ≤ bufsize.toNat := by
    have := hroom.1
    rw [List.length_cons] at this
    omega
  obtain ⟨fuel, hrun⟩ := ykReadResponseFromKey_reaches slot expectBytes h7 hstream (.inl hroom.1)
  rw [readResponseLoop_cutShort (w := received w idle r₀ rs d₁) hroom hread ht] at hrun
  refine ⟨_, hrun, ?_⟩
  rcases reset_cases H (consumed (received w idle r₀ rs d₁) [t] d₂) with
    ⟨d, -, hreset⟩ | ⟨e, d, hfail, -⟩
  · rw [reset, hreset]
    rfl
  · rw [show (consumed (received w idle r₀ rs d₁) [t] d₂).dev = d₂ from rfl] at hfail
    rw [hfail] at hwrite
    simp at hwrite

theorem cutShort_of_silent (hB : H.SetsErrno) {w' : World σ}
    (h : ykReadResponseFromKey H slot flags bufsize expectBytes w = (.fail, w'))
    (hw' : w'.ykErrno = none) : CutShort H flags bufsize.toNat w.dev := by
  have hwait := ykWaitForKeyStatus_loud H hB slot flags 1000 true respPendingFlag
  by_cases h7 : 7 ≤ bufsize.toNat
  swap
  · rcases (ykWaitForKeyStatus_terminates H slot flags true respPendingFlag (m := 1000) (by decide)
      w).cases with ⟨r₀, w₁, hw₁⟩ | ⟨w₁, hw₁⟩
    · rw [ykReadResponseFromKey_small (Nat.lt_of_not_le h7) hw₁] at h
      simp at h
    · have hfail : ykReadResponseFromKey H slot flags bufsize expectBytes w = (.fail, w₁) :=
        Proc.bind_fail hw₁
      obtain rfl : w₁ = w' := by simpa using hfail.symm.trans h
      exact absurd hw' (hwait w w₁ hw₁)
  rcases ykReadResponseFromKey_exits H slot flags expectBytes h7 w with
    ⟨w₁, hw₁, hrun⟩ | ⟨idle, r₀, rs, d, res, w₁, hstream, -, hexit, hrun⟩
  · obtain rfl : w₁ = w' := by simpa using hrun.symm.trans h
    exact absurd hw' (hwait w w₁ hw₁)
  obtain ⟨rfl, rfl⟩ : res = .fail ∧ w₁ = w' := by simpa using hrun.symm.trans h
  cases hexit with
  | full hroom => simp at hw'
  | unread hroom hread => exact absurd hw' (read_loud hB _ _ (Backend.read_of_error hread))
  | rejected hroom hread ht hv => simp at hw'
  | @cutShort t d₂ hroom hread ht =>
    refine ⟨idle, r₀, rs, d, t, d₂, hstream, hroom, hread, ht, ?_⟩
    rcases reset_cases H (consumed (received w idle r₀ rs d) [t] d₂) with
      ⟨d₃, hok, -⟩ | ⟨e, d₃, hfail, hreset⟩
    · rw [show d₂ = (consumed (received w idle r₀ rs d) [t] d₂).dev from rfl, hok]
    · rw [reset, hreset] at hw'
      exact absurd hw' (write_loud hB _ _ _ (Backend.write_of_error hfail))

theorem errnoSet_response_iff (hB : H.SetsErrno) (hw : w.ykErrno = none) :
    ErrnoSet (ykReadResponseFromKey H slot flags bufsize expectBytes) w
      ↔ ¬ CutShort H flags bufsize.toNat w.dev := by
  refine ⟨fun h hcut => ?_, fun h w' hrun hw' => h (cutShort_of_silent hB hrun hw')⟩
  obtain ⟨w', hrun, hw'⟩ := silent_of_cutShort slot expectBytes hcut
  exact h w' hrun (hw'.trans hw)

theorem sendParts_ykErrno {slot : UInt8} : ∀ {left seq : ℕ} {ptr : List UInt8} {w w' : World σ},
    sendParts H slot left seq ptr w = (.ok (), w') → w'.ykErrno = w.ykErrno
  | 0, seq, ptr, w, w', h => by
    simp only [sendParts, Proc.pure_run, Prod.mk.injEq, true_and] at h
    rw [h]
  | left + 1, seq, ptr, w, w', h => by
    simp only [sendParts] at h
    split_ifs at h
    · exact sendParts_ykErrno h
    obtain ⟨r, w₁, hwait, h⟩ := Proc.bind_eq_ok.1 h
    obtain ⟨_, w₂, hwrite, h⟩ := Proc.bind_eq_ok.1 h
    obtain ⟨idle, -, -, -, hw₁⟩ := ykWaitForKeyStatus_ok hwait
    obtain ⟨-, hw₂⟩ := Backend.write_eq_ok hwrite
    rw [sendParts_ykErrno h, hw₂, hw₁]
    rfl

theorem ykWriteToKey_ykErrno {buf : List UInt8} {bufcount : Int32} {w' : World σ}
    (h : ykWriteToKey H slot buf bufcount w = (.ok (), w')) : w'.ykErrno = w.ykErrno := by
  unfold ykWriteToKey at h
  split_ifs at h
  · simp at h
  obtain ⟨bytes, w₁, hload, h⟩ := Proc.bind_eq_ok.1 h
  unfold loadBytes at hload
  split_ifs at hload
  · simp only [Proc.pure_run, Prod.mk.injEq] at hload
    obtain ⟨-, rfl⟩ := hload
    exact sendParts_ykErrno h
  · simp at hload

/-- A command that writes, reads a response, and then sets `yk_errno` when it fails. -/
theorem errnoSet_write_response_iff {α : Type} (hB : H.SetsErrno) (hw : w.ykErrno = none)
    {ykCmd : UInt8} {buf : List UInt8} {bufcount : Int32} {f : List UInt8 × ℕ → Yk σ α}
    (hf : ∀ a, Loud (f a)) :
    ErrnoSet (ykWriteToKey H ykCmd buf bufcount >>= fun _ =>
        ykReadResponseFromKey H slot flags bufsize expectBytes >>= f) w
      ↔ ¬ ∃ w₁, ykWriteToKey H ykCmd buf bufcount w = (.ok (), w₁)
        ∧ CutShort H flags bufsize.toNat w₁.dev := by
  constructor
  · rintro h ⟨w₁, hwrite, hcut⟩
    obtain ⟨w', hrun, hw'⟩ := silent_of_cutShort slot expectBytes hcut
    refine h w' ((Proc.bind_ok hwrite).trans (Proc.bind_fail hrun)) ?_
    rw [hw', ykWriteToKey_ykErrno hwrite, hw]
  · intro h w' hrun hw'
    rcases Proc.bind_eq_fail.1 hrun with hwrite | ⟨_, w₁, hwrite, hrun⟩
    · exact ykWriteToKey_loud hB _ _ _ w w' hwrite hw'
    rcases Proc.bind_eq_fail.1 hrun with hread | ⟨a, w₂, -, hrest⟩
    · exact h ⟨w₁, hwrite, cutShort_of_silent hB hread hw'⟩
    · exact hf a w₂ w' hrest hw'

end Response

/-- Entered with no code in `yk_errno`, the functions that read no response store one whenever
they return 0, and those that read one do so if and only if it is not cut short. -/
theorem failures_set_ykErrno (H : Host σ) (hB : H.SetsErrno) {w : World σ}
    (hw : w.ykErrno = none) :
    ErrnoSet (ykGetStatus H) w
      ∧ (∀ slot buf bufcount, ErrnoSet (ykWriteToKey H slot buf bufcount) w)
      ∧ (∀ cfg command accCode, ErrnoSet (ykWriteCommand H cfg command accCode) w)
      ∧ (∀ ndef confnum, ErrnoSet (ykWriteNdef2 H ndef confnum) w)
      ∧ (∀ deviceConfig, ErrnoSet (ykWriteDeviceConfig H deviceConfig) w)
      ∧ (∀ scanCodes, ErrnoSet (ykWriteScanMap H scanCodes) w)
      ∧ (∀ slot flags bufsize expectBytes,
        ErrnoSet (ykReadResponseFromKey H slot flags bufsize expectBytes) w
          ↔ ¬ CutShort H flags bufsize.toNat w.dev)
      ∧ (∀ slot flags, ErrnoSet (ykGetSerial H slot flags) w
        ↔ ¬ ∃ w₁, ykWriteToKey H slotDeviceSerial (List.replicate 16 0) 0 w = (.ok (), w₁)
          ∧ CutShort H flags 16 w₁.dev)
      ∧ (∀ slot flags capabilities len, ErrnoSet (ykGetCapabilities H slot flags capabilities len) w
        ↔ ¬ ∃ w₁, ykWriteToKey H slotYk4Capabilities capabilities 0 w = (.ok (), w₁)
          ∧ CutShort H flags len.toNat w₁.dev)
      ∧ ∀ ykCmd mayBlock (challengeLen : UInt32) challenge (responseLen : UInt32),
        ErrnoSet (ykChallengeResponse H ykCmd mayBlock challengeLen challenge responseLen) w
          ↔ ¬ ((chalRespBytes ykCmd).isSome ∧ ∃ w₁,
            ykWriteToKey H ykCmd challenge (Int32.ofNat challengeLen.toNat) w = (.ok (), w₁)
              ∧ CutShort H (if mayBlock then ykFlagMayblock else 0) responseLen.toNat w₁.dev) := by
  refine ⟨ykGetStatus_loud hB w, fun _ _ _ => ykWriteToKey_loud hB _ _ _ w,
    fun _ _ _ => ykWriteCommand_loud hB _ _ _ w, fun _ _ => ykWriteNdef2_loud hB _ _ w,
    fun _ => ykWrite_loud hB _ _ _ w, fun _ => ykWrite_loud hB _ _ _ w,
    fun _ _ _ _ => errnoSet_response_iff hB hw, fun _ _ => ?_, fun _ _ _ len => ?_,
    fun ykCmd _ _ _ _ => ?_⟩
  · exact errnoSet_write_response_iff hB hw fun _ => Proc.Fails.pure _
  · exact errnoSet_write_response_iff hB hw fun a =>
      Proc.Fails.ite (failWith_loud _) (Proc.Fails.pure _)
  · unfold ykChallengeResponse
    rcases chalRespBytes ykCmd with _ | n
    · simp only [Option.isSome_none, Bool.false_eq_true, false_and, not_false_eq_true, iff_true]
      exact failWith_loud _ w
    · simp only [Option.isSome_some, true_and]
      exact errnoSet_write_response_iff hB hw fun _ => Proc.Fails.pure _

open ScriptedKey in
/-- A key that answers nothing, and one that answers nothing behind the first part of a response. -/
theorem failures_set_ykErrno_status :
    ErrnoSet (ykGetStatus (host .little crc16)) (session []) ∧
      ErrnoSet (ykReadResponseFromKey (host .little crc16) 0 0 16 4) (session [statusReport 0x40])
      ∧ ¬ CutShort (host .little crc16) 0 16 (session [statusReport 0x40]).dev := by
  have herr : (ykReadResponseFromKey (host .little crc16) 0 0 16 4
      (session [statusReport 0x40])).2.ykErrno ≠ none := by decide +kernel
  have hset : ErrnoSet (ykReadResponseFromKey (host .little crc16) 0 0 16 4)
      (session [statusReport 0x40]) := fun w' h => by rwa [h] at herr
  have hresponse := (failures_set_ykErrno (host .little crc16) setsErrno
    (w := session [statusReport 0x40]) rfl).2.2.2.2.2.2.1 0 0 16 4
  exact ⟨(failures_set_ykErrno (host .little crc16) setsErrno rfl).1, hset, hresponse.1 hset⟩

open ScriptedKey in
/-- A response that stops after its first part: the call returns 0 and no code is set. -/
theorem response_cut_short_silent :
    let run := ykReadResponseFromKey (host .little crc16) 0 0 16 4
    let w := session [statusReport 0x40, statusReport 0]
    w.ykErrno = none ∧ (run w).1 = .fail ∧ (run w).2.ykErrno = none := by
  decide +kernel

end YkPers
