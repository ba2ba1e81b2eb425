import YkPers.Proofs.WriteToKey

/-!
# Write commands

All write commands go through `_yk_write`: a status block is read, the frame is written, the key
is polled until it has processed it, and the status block is read again. The payload that
`yk_write_command` puts on the wire is the configuration under a checksum of its own
(`ykWriteCommand_payload`). Success is read off the two status blocks, and a key that ignores the
command is found out unless its status is that of an erased key (`ykWrite_ignored_iff`).
-/

namespace YkPers

variable {σ : Type} {H : Host σ}

/-! ## The status block -/

def statusBlock (e : Endian) (r : Report) : YkStatus :=
  let status := YkStatus.ofBytes e ((r.toList.drop 1).take ykStatusSize)
  { status with touchLevel := ykEndianSwap16 e status.touchLevel }

theorem ykGetStatus_of_ok {w : World σ} {r : Report} {d : σ}
    (h : H.ykusbRead w.dev = (.ok r, d)) :
    ykGetStatus H w = (.ok (statusBlock H.endian r),
      { w with dev := d, trace := w.trace ++ [.read (some r)] }) := by
  have hread : ykReadFromKey H 0 ykStatusSize w = (.ok ((r.toList.drop 1).take ykStatusSize,
      ykStatusSize), { w with dev := d, trace := w.trace ++ [.read (some r)] }) := by
    rw [ykReadFromKey, if_neg (by decide), Proc.bind_ok (Backend.read_of_ok h), Proc.pure_run]
  rw [ykGetStatus, Proc.bind_ok hread]
  rfl

theorem ykGetStatus_of_error {w : World σ} {e : Option YkErr} {d : σ}
    (h : H.ykusbRead w.dev = (.error e, d)) :
    ykGetStatus H w
      = (.fail, { dev := d, ykErrno := e <|> w.ykErrno, trace := w.trace ++ [.read none] }) := by
  have hread : ykReadFromKey H 0 ykStatusSize w
      = (.fail, { dev := d, ykErrno := e <|> w.ykErrno, trace := w.trace ++ [.read none] }) := by
    rw [ykReadFromKey, if_neg (by decide)]
    exact Proc.bind_fail (Backend.read_of_error h)
  rw [ykGetStatus]
  exact Proc.bind_fail hread

theorem ykGetStatus_ok {w w' : World σ} {st : YkStatus} (h : ykGetStatus H w = (.ok st, w')) :
    ∃ r, H.Serves w.dev [r] w'.dev ∧ st = statusBlock H.endian r := by
  rcases hr : H.ykusbRead w.dev with ⟨e | r, d⟩
  · rw [ykGetStatus_of_error hr] at h
    simp at h
  · rw [ykGetStatus_of_ok hr] at h
    simp only [Prod.mk.injEq, Ret.ok.injEq] at h
    obtain ⟨rfl, rfl⟩ := h
    exact ⟨r, ⟨d, hr, rfl⟩, rfl⟩

/-! ## One write -/

/-- A write up to its last check: the status before and after it, and the sessions between. -/
structure Written (H : Host σ) (ykCmd : UInt8) (buf : List UInt8) (len : ℕ) (w : World σ)
    (before : YkStatus) (w₁ w₂ : World σ) (after : YkStatus) (w' : World σ) : Prop where
  getBefore : ykGetStatus H w = (.ok before, w₁)
  write : ykWriteToKey H ykCmd buf (Int32.ofNat len) w₁ = (.ok (), w₂)
  processed : ∃ r w₃,
    ykWaitForKeyStatus H ykCmd 0 waitForWriteFlag false slotWriteFlag w₂ = (.ok r, w₃)
      ∧ ykGetStatus H w₃ = (.ok after, w')

section Write

variable {ykCmd : UInt8} {buf : List UInt8} {len : ℕ} {w w₁ w₂ w' : World σ}
  {before after : YkStatus}

theorem ykWrite_of_written (h : Written H ykCmd buf len w before w₁ w₂ after w') :
    ykWrite H ykCmd buf len w
      = (if after.erased || after.pgmSeq != before.pgmSeq then .ok () else .fail,
          { w' with ykErrno := some .EWRITEERR }) := by
  obtain ⟨hbefore, hwrite, r, w₃, hwait, hafter⟩ := h
  rw [ykWrite, Proc.bind_ok hbefore]
  refine (Proc.bind_ok hwrite).trans ((Proc.bind_ok hwait).trans ((Proc.bind_ok hafter).trans ?_))
  rw [Proc.bind_ok (setErrno_run .EWRITEERR w')]
  by_cases herased : after.erased = true
  · simp [herased]
  · by_cases hseq : after.pgmSeq = before.pgmSeq
    · simp [herased, hseq]
    · simp [herased, hseq]

theorem ykWrite_ok {u : Unit} (h : ykWrite H ykCmd buf len w = (.ok u, w')) :
    ∃ before w₁ w₂ after w₃, Written H ykCmd buf len w before w₁ w₂ after w₃
      ∧ w' = { w₃ with ykErrno := some .EWRITEERR } := by
  unfold ykWrite at h
  obtain ⟨before, w₁, hbefore, h⟩ := Proc.bind_eq_ok.1 h
  obtain ⟨_, w₂, hwrite, h⟩ := Proc.bind_eq_ok.1 h
  obtain ⟨r, w₃, hwait, h⟩ := Proc.bind_eq_ok.1 h
  obtain ⟨after, w₄, hafter, h⟩ := Proc.bind_eq_ok.1 h
  have hwritten : Written H ykCmd buf len w before w₁ w₂ after w₄ :=
    ⟨hbefore, hwrite, r, w₃, hwait, hafter⟩
  refine ⟨before, w₁, w₂, after, w₄, hwritten, ?_⟩
  rw [Proc.bind_ok (setErrno_run .EWRITEERR w₄)] at h
  split_ifs at h
  · simpa using h.symm
  · simpa using h.symm
  · simp at h

/-- The frame the write brought is still there after the last check. -/
theorem Written.frame {frame : σ → List UInt8} (hdev : Reassembles H.toBackend frame)
    (h : Written H ykCmd buf len w before w₁ w₂ after w') (hlen : len ≤ slotDataSize)
    (hbuf : len ≤ buf.length) :
    frame w'.dev = wireFrame H.yubikeyCrc16 ykCmd (buf.take len) := by
  obtain ⟨-, hwrite, r, w₃, hwait, hafter⟩ := h
  obtain ⟨q, hq, -⟩ := ykGetStatus_ok hafter
  obtain ⟨idle, -, -, hserve, -⟩ := ykWaitForKeyStatus_ok hwait
  rw [hdev.serves hq, hdev.serves hserve, ykWriteToKey_frame hdev ykCmd hlen hbuf hwrite]

end Write

/-! ## The payload of `yk_write_command` -/

/-- The bytes of a configuration under a checksum of its own, low byte first. -/
def sealedBytes (c : YkConfig) : List UInt8 :=
  c.bytesBeforeCrc ++ Endian.little.bytes16 (~~~ crc16 c.bytesBeforeCrc)

section Payload

variable {cfg : Option YkConfig} {accCode : Option (Vector UInt8 accCodeSize)}

theorem bytes_updateCrc (hcrc : H.yubikeyCrc16 = crc16) (c : YkConfig) :
    (updateCrc H c).bytes H.endian = sealedBytes c := by
  rw [sealedBytes, ← bytes16_ykEndianSwap16 H.endian, ← hcrc]
  rfl

theorem length_sealedBytes (c : YkConfig) : (sealedBytes c).length = ykConfigSize := by
  simp [sealedBytes, Endian.bytes16, YkConfig.length_bytesBeforeCrc]

/-- The block is the configuration and the access code, zeros where one is absent. -/
theorem commandBlock_of_bytes {bytes : YkConfig → List UInt8}
    (hbytes : ∀ c, (updateCrc H c).bytes H.endian = bytes c)
    (hlen : ∀ c, (bytes c).length = ykConfigSize) :
    commandBlock H (cfg.map (updateCrc H)) accCode
      = cfg.elim (List.replicate ykConfigSize 0) bytes
        ++ accCode.elim (List.replicate accCodeSize 0) Vector.toList := by
  have hcfg : ∀ c : YkConfig, Buffer.store (List.replicate (ykConfigSize + accCodeSize) 0) 0
      (bytes c) = bytes c ++ List.replicate accCodeSize 0 := by
    intro c
    have h := Buffer.store_replicate [] (bytes c) (ykConfigSize + accCodeSize) 0
    rw [hlen, Nat.add_sub_cancel_left] at h
    exact h
  have hacc : ∀ (l : List UInt8) (a : Vector UInt8 accCodeSize), l.length = ykConfigSize →
      Buffer.store (l ++ List.replicate accCodeSize 0) ykConfigSize a.toList = l ++ a.toList := by
    intro l a hl
    have h := Buffer.store_replicate l a.toList accCodeSize 0
    rw [hl] at h
    simpa using h
  rcases cfg with _ | c <;> rcases accCode with _ | a
  · rfl
  · exact hacc (List.replicate ykConfigSize 0) a (by simp)
  · simp only [commandBlock, Option.map_some, hbytes, hcfg]
    rfl
  · simp only [commandBlock, Option.map_some, hbytes, hcfg]
    exact hacc _ a (hlen c)

theorem commandBlock_eq (hcrc : H.yubikeyCrc16 = crc16) :
    commandBlock H (cfg.map (updateCrc H)) accCode
      = cfg.elim (List.replicate ykConfigSize 0) sealedBytes
        ++ accCode.elim (List.replicate accCodeSize 0) Vector.toList :=
  commandBlock_of_bytes (bytes_updateCrc hcrc) length_sealedBytes

theorem length_commandBlock (hcrc : H.yubikeyCrc16 = crc16) :
    (commandBlock H (cfg.map (updateCrc H)) accCode).length = 58 := by
  rw [commandBlock_eq hcrc]
  rcases cfg with _ | c <;> rcases accCode with _ | a <;>
    simp [length_sealedBytes, ykConfigSize, accCodeSize]

end Payload

/-- Whenever the frame is sent, and so whenever the call succeeds, the payload at the key is the
configuration under its own checksum, the access code, and zeros. Only the checksum of the
caller's configuration is changed. -/
theorem ykWriteCommand_payload (H : Host σ) (hcrc : H.yubikeyCrc16 = crc16)
    {frame : σ → List UInt8} (hdev : Reassembles H.toBackend frame) (cfg : Option YkConfig)
    (command : UInt8) (accCode : Option (Vector UInt8 accCodeSize)) :
    let payload := cfg.elim (List.replicate 52 0) sealedBytes
      ++ accCode.elim (List.replicate 6 0) Vector.toList ++ List.replicate 6 0
    (∀ w w', ykWriteToKey H command (commandBlock H (cfg.map (updateCrc H)) accCode) 58 w
        = (.ok (), w') → (frame w'.dev).take 64 = payload)
      ∧ (∀ w out w', ykWriteCommand H cfg command accCode w = (.ok out, w') →
        (frame w'.dev).take 64 = payload ∧ out = cfg.map (updateCrc H))
      ∧ ∀ c ∈ cfg, crc16 (sealedBytes c) = ykCrcOkResidual
        ∧ (∀ crc, sealedBytes { c with crc := crc } = sealedBytes c)
        ∧ (∃ crc, updateCrc H c = { c with crc := crc })
        ∧ (updateCrc H c).bytes H.endian = sealedBytes c := by
  intro payload
  have hlen : (commandBlock H (cfg.map (updateCrc H)) accCode).length = 58 :=
    length_commandBlock hcrc
  have htake : (wireFrame H.yubikeyCrc16 command
      ((commandBlock H (cfg.map (updateCrc H)) accCode).take 58)).take 64 = payload := by
    have hblock : (commandBlock H (cfg.map (updateCrc H)) accCode).take 58
        = cfg.elim (List.replicate 52 0) sealedBytes
          ++ accCode.elim (List.replicate 6 0) Vector.toList := by
      rw [← hlen, List.take_length, commandBlock_eq hcrc]
    have hpad : slotDataSize - (cfg.elim (List.replicate 52 0) sealedBytes
        ++ accCode.elim (List.replicate 6 0) Vector.toList).length = 6 := by
      rw [← hblock, List.length_take, hlen]
      rfl
    rw [wireFrame, hblock, hpad, List.append_assoc, List.append_assoc]
    refine List.take_left' ?_
    rw [List.length_append, ← hblock, List.length_take, hlen, List.length_replicate]
    rfl
  refine ⟨fun w w' h => ?_, fun w out w' h => ?_, fun c _ => ⟨?_, fun _ => rfl, ⟨_, rfl⟩,
    bytes_updateCrc hcrc c⟩⟩
  · rw [ykWriteToKey_frame hdev command (n := 58) (by decide) (by omega) h, htake]
  · rw [ykWriteCommand] at h
    obtain ⟨_, w₁, hwrite, h⟩ := Proc.bind_eq_ok.1 h
    simp only [Proc.pure_run, Prod.mk.injEq, Ret.ok.injEq] at h
    obtain ⟨rfl, rfl⟩ := h
    obtain ⟨before, w₂, w₃, after, w₄, hwritten, rfl⟩ := ykWrite_ok hwrite
    rw [hlen] at hwritten
    exact ⟨by rw [hwritten.frame hdev (by decide) (by omega), htake], rfl⟩
  · exact crc16_append_complement _

/-- A configuration with a key. -/
def sampleConfig : YkConfig where
  fixed := .replicate _ 1
  uid := .replicate _ 2
  key := .replicate _ 3
  accCode := .replicate _ 4
  fixedSize := 16
  extFlags := 0
  tktFlags := 0x20
  cfgFlags := 0
  rfu := .replicate _ 0
  crc := 0

open ScriptedKey in
/-- A command that erases the slot, and one that writes a configuration under an access code. -/
theorem ykWriteCommand_payload_erase :
    (∃ w', ykWriteCommand (host .big crc16) none slotConfig none (session
        ([keyReport 5 1] ++ List.replicate 3 (statusReport 0) ++ [keyReport 6 1])) = (.ok none, w')
      ∧ w'.dev.frame.take 64 = List.replicate 64 0) ∧
    ∃ out w', ykWriteCommand (host .big crc16) (some sampleConfig) slotConfig2
        (some (.replicate _ 7)) (session
          ([keyReport 5 1] ++ List.replicate 13 (statusReport 0) ++ [keyReport 6 1]))
        = (.ok (some out), w')
      ∧ w'.dev.frame.take 64 = sealedBytes sampleConfig ++ List.replicate 6 7
        ++ List.replicate 6 0 := by
  have hok : (ykWriteCommand (host .big crc16) none slotConfig none (session
      ([keyReport 5 1] ++ List.replicate 3 (statusReport 0) ++ [keyReport 6 1]))).1 = .ok none := by
    decide +kernel
  have hrun := Proc.run_eq hok
  have hok' : (ykWriteCommand (host .big crc16) (some sampleConfig) slotConfig2
      (some (.replicate _ 7)) (session
        ([keyReport 5 1] ++ List.replicate 13 (statusReport 0) ++ [keyReport 6 1]))).1
      = .ok (some (updateCrc (host .big crc16) sampleConfig)) := by
    decide +kernel
  have hrun' := Proc.run_eq hok'
  exact ⟨⟨_, hrun, ((ykWriteCommand_payload (host .big crc16) rfl reassembles none slotConfig
      none).2.1 _ _ _ hrun).1⟩,
    _, _, hrun', ((ykWriteCommand_payload (host .big crc16) rfl reassembles (some sampleConfig)
      slotConfig2 (some (.replicate _ 7))).2.1 _ _ _ hrun').1⟩

/-! ## A key that ignores the command -/

/-- The key acknowledges the write, and its status block is `st` before it and after it. -/
def Ignored (H : Host σ) (ykCmd : UInt8) (buf : List UInt8) (len : ℕ) (w : World σ)
    (st : YkStatus) : Prop :=
  ∃ w₁ w₂ w', Written H ykCmd buf len w st w₁ w₂ st w'

def WriteFails {α : Type} (x : Yk σ α) (w : World σ) : Prop :=
  ∃ w', x w = (.fail, w') ∧ w'.ykErrno = some .EWRITEERR

theorem writeFails_of_ignored {ykCmd : UInt8} {buf : List UInt8} {len : ℕ} {w : World σ}
    {st : YkStatus} (h : Ignored H ykCmd buf len w st) :
    WriteFails (ykWrite H ykCmd buf len) w ↔ st.erased = false := by
  obtain ⟨w₁, w₂, w', h⟩ := h
  unfold WriteFails
  rw [ykWrite_of_written h]
  rcases st.erased with _ | _ <;> simp

theorem writeFails_map {α : Type} {x : Yk σ Unit} (a : α) (w : World σ) :
    WriteFails (x >>= fun _ => pure a) w ↔ WriteFails x w := by
  unfold WriteFails
  rcases hx : x w with ⟨_ | _ | _ | _, w'⟩
  · rw [Proc.bind_ok hx]
    simp
  · rw [Proc.bind_fail hx]
    simp
  · rw [Proc.bind_fault hx]
    simp
  · rw [Proc.bind_diverge hx]
    simp

theorem writeFails_ykWriteCommand {cfg : Option YkConfig} {command : UInt8}
    {accCode : Option (Vector UInt8 accCodeSize)} {w : World σ} {st : YkStatus}
    (h : Ignored H command (commandBlock H (cfg.map (updateCrc H)) accCode)
      (commandBlock H (cfg.map (updateCrc H)) accCode).length w st) :
    WriteFails (ykWriteCommand H cfg command accCode) w ↔ st.erased = false := by
  rw [← writeFails_of_ignored h]
  exact writeFails_map _ w

/-- When the key ignores the command, the write and each call built on it report the failure if
and only if the key's status is not that of an erased key. -/
theorem ykWrite_ignored_iff (H : Host σ) (w : World σ) (st : YkStatus) :
    (∀ ykCmd buf len, Ignored H ykCmd buf len w st →
        (WriteFails (ykWrite H ykCmd buf len) w ↔ st.erased = false))
      ∧ (∀ cfg command accCode,
        Ignored H command (commandBlock H (Option.map (updateCrc H) cfg) accCode)
          (commandBlock H (Option.map (updateCrc H) cfg) accCode).length w st →
        (WriteFails (ykWriteCommand H cfg command accCode) w ↔ st.erased = false))
      ∧ (∀ cfg confnum command accCode,
        confnum = 1 ∧ command = slotConfig ∨ confnum = 2 ∧ command = slotConfig2 →
        Ignored H command (commandBlock H (Option.map (updateCrc H) cfg) accCode)
          (commandBlock H (Option.map (updateCrc H) cfg) accCode).length w st →
        (WriteFails (ykWriteConfig H cfg confnum accCode) w ↔ st.erased = false))
      ∧ (∀ ndef confnum command,
        confnum = 1 ∧ command = slotNdef ∨ confnum = 2 ∧ command = slotNdef2 →
        Ignored H command (YkNdef.bytes ndef) ykNdefSize w st →
        (WriteFails (ykWriteNdef2 H ndef confnum) w ↔ st.erased = false))
      ∧ (∀ deviceConfig,
        Ignored H slotDeviceConfig (YkDeviceConfig.bytes H.endian deviceConfig)
          ykDeviceConfigSize w st →
        (WriteFails (ykWriteDeviceConfig H deviceConfig) w ↔ st.erased = false))
      ∧ (∀ scanCodes, Ignored H slotScanMap scanCodes scanMap.length w st →
        (WriteFails (ykWriteScanMap H scanCodes) w ↔ st.erased = false))
      ∧ ∀ buf len, Ignored H slotYk4SetDeviceInfo buf (UInt32.toNat len) w st →
        (WriteFails (ykWriteDeviceInfo H buf len) w ↔ st.erased = false) := by
  refine ⟨fun _ _ _ h => writeFails_of_ignored h, fun _ _ _ h => writeFails_ykWriteCommand h,
    fun cfg confnum command accCode hnum h => ?_, fun ndef confnum command hnum h => ?_,
    fun _ h => writeFails_of_ignored h, fun _ h => writeFails_of_ignored h,
    fun _ _ h => writeFails_of_ignored h⟩
  · rcases hnum with ⟨rfl, rfl⟩ | ⟨rfl, rfl⟩
    · exact writeFails_ykWriteCommand h
    · exact writeFails_ykWriteCommand h
  · rcases hnum with ⟨rfl, rfl⟩ | ⟨rfl, rfl⟩
    · exact writeFails_of_ignored h
    · exact writeFails_of_ignored h

section Ignoring

open ScriptedKey

/-- A session with a key that acknowledges two reports and keeps its status. -/
def ignoring (pgmSeq touchLevel : UInt8) : World ScriptedKey :=
  session ([keyReport pgmSeq touchLevel] ++ List.replicate 3 (statusReport 0)
    ++ [keyReport pgmSeq touchLevel])

theorem ignored_of_runs {H : Host σ} {ykCmd : UInt8} {buf : List UInt8} {len : ℕ} {w : World σ}
    {st : YkStatus} {r : Report} (hbefore : (ykGetStatus H w).1 = .ok st)
    (hwrite : (ykWriteToKey H ykCmd buf (Int32.ofNat len) (ykGetStatus H w).2).1 = .ok ())
    (hwait : (ykWaitForKeyStatus H ykCmd 0 waitForWriteFlag false slotWriteFlag
      (ykWriteToKey H ykCmd buf (Int32.ofNat len) (ykGetStatus H w).2).2).1 = .ok r)
    (hafter : (ykGetStatus H (ykWaitForKeyStatus H ykCmd 0 waitForWriteFlag false slotWriteFlag
      (ykWriteToKey H ykCmd buf (Int32.ofNat len) (ykGetStatus H w).2).2).2).1 = .ok st) :
    Ignored H ykCmd buf len w st :=
  ⟨_, _, _, Proc.run_eq hbefore, Proc.run_eq hwrite, r, _, Proc.run_eq hwait, Proc.run_eq hafter⟩

theorem ykWrite_ignored_iff_configured :
    WriteFails (ykWrite (host .little crc16) slotConfig [1, 2, 3] 3) (ignoring 5 1)
      ↔ (⟨4, 3, 2, 5, 1⟩ : YkStatus).erased = false :=
  (ykWrite_ignored_iff (host .little crc16) (ignoring 5 1) ⟨4, 3, 2, 5, 1⟩).1 slotConfig [1, 2, 3] 3
    (ignored_of_runs (r := statusReport 0) (by decide +kernel) (by decide +kernel)
      (by decide +kernel) (by decide +kernel))

/-- A key without a configuration that ignores a new one: the write is reported as done. -/
theorem ykWrite_ignored_unconfigured :
    Ignored (host .little crc16) slotConfig [1, 2, 3] 3 (ignoring 0 0) ⟨4, 3, 2, 0, 0⟩
      ∧ (ykWrite (host .little crc16) slotConfig [1, 2, 3] 3 (ignoring 0 0)).1 = .ok () :=
  ⟨ignored_of_runs (r := statusReport 0) (by decide +kernel) (by decide +kernel)
    (by decide +kernel) (by decide +kernel), by decide +kernel⟩

end Ignoring

end YkPers
