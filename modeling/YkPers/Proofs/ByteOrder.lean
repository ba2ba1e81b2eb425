import YkPers.Proofs.WriteCommand

/-!
# Hosts of either byte order

What a frame is made of is swapped before it is copied, so that two hosts that differ in their byte
order send the same for the same payload. `yk_write_command` swaps the checksum that it adds;
`yk_write_device_config` copies its 16-bit field as it lies in memory.
-/

namespace YkPers

variable {σ α : Type} (B : Backend σ) (crc16 : List UInt8 → UInt16)

/-- The host of a byte order. -/
def hostOf (e : Endian) : Host σ := { B with endian := e, yubikeyCrc16 := crc16 }

/-- The configuration under its checksum, low byte first, and the access code. -/
def commandBytes (cfg : Option YkConfig) (accCode : Option (Vector UInt8 accCodeSize)) :
    List UInt8 :=
  cfg.elim (List.replicate ykConfigSize 0) (fun c =>
      c.bytesBeforeCrc ++ Endian.little.bytes16 (~~~ crc16 c.bytesBeforeCrc))
    ++ accCode.elim (List.replicate accCodeSize 0) Vector.toList

section Congr

theorem waitLoop_hostOf (e e' : Endian) (flags : UInt32) (logicAnd : Bool) (mask : UInt8) :
    ∀ fuel v t m b, waitLoop (hostOf B crc16 e) flags logicAnd mask fuel v t m b
      = waitLoop (hostOf B crc16 e') flags logicAnd mask fuel v t m b
  | 0, _, _, _, _ => rfl
  | fuel + 1, v, t, m, b => by
    have ih := waitLoop_hostOf e e' flags logicAnd mask fuel
    simp only [waitLoop, ih]
    rfl

theorem sendParts_hostOf (e e' : Endian) (slot : UInt8) :
    ∀ left seq ptr, sendParts (hostOf B crc16 e) slot left seq ptr
      = sendParts (hostOf B crc16 e') slot left seq ptr
  | 0, _, _ => rfl
  | left + 1, seq, ptr => by
    have ih := sendParts_hostOf e e' slot left
    have hwait := waitLoop_hostOf B crc16 e e' 0 false slotWriteFlag
    simp only [sendParts, ih, ykWaitForKeyStatus, hwait]
    rfl

variable {B crc16}

theorem ykWriteToKey_hostOf (e e' : Endian) (slot : UInt8) (buf : List UInt8) (bufcount : Int32) :
    ykWriteToKey (hostOf B crc16 e) slot buf bufcount
      = ykWriteToKey (hostOf B crc16 e') slot buf bufcount := by
  have hframe : ∀ bytes, (ykFrame (hostOf B crc16 e) slot bytes).bytes e
      = (ykFrame (hostOf B crc16 e') slot bytes).bytes e' := fun bytes => by
    simp only [YkFrame.bytes, ykFrame, hostOf, bytes16_ykEndianSwap16]
  have hsend := sendParts_hostOf B crc16 e e' slot
  unfold ykWriteToKey
  split_ifs
  · rfl
  · show (loadBytes buf (sizeT bufcount) >>= fun bytes => _) = _
    simp only [show ∀ e, (hostOf B crc16 e).endian = e from fun _ => rfl, hframe, hsend]

theorem ykEndianSwap16_read16 (e : Endian) (a b : UInt8) :
    ykEndianSwap16 e (e.read16 a b) = Endian.little.read16 a b := by
  cases e with
  | little => rfl
  | big =>
    have hmask : ∀ i, (255#16).getLsbD i = decide (i < 8) := by
      intro i
      by_cases hi : i < 16
      · exact (by decide : ∀ i < 16, (255#16).getLsbD i = decide (i < 8)) i hi
      · rw [BitVec.getLsbD_of_ge _ _ (by omega), decide_eq_false (by omega)]
    have hswap : ∀ x, ykEndianSwap16 .big x = (x >>> 8) ||| ((x &&& 0xff) <<< 8) := fun _ => rfl
    rw [hswap]
    apply UInt16.toBitVec_inj.1
    apply BitVec.eq_of_getLsbD_eq
    intro i hi
    have hout : ∀ k, ¬ k < 8 → a.toBitVec.getLsbD k = false := fun k hk =>
      BitVec.getLsbD_of_ge _ _ (by omega)
    simp [Endian.read16, -BitVec.getLsbD_eq_getElem, hmask, hi]
    by_cases h8 : i < 8
    · simp [h8]
      omega
    · have hlow : i - 8 < 8 := by omega
      simp [h8, hlow, hout, -BitVec.getLsbD_eq_getElem]

theorem ykGetStatus_hostOf (e e' : Endian) :
    ykGetStatus (hostOf B crc16 e) = ykGetStatus (hostOf B crc16 e') := by
  have hstatus : ∀ (e : Endian) (bytes : List UInt8),
      { YkStatus.ofBytes e bytes with
        touchLevel := ykEndianSwap16 e (YkStatus.ofBytes e bytes).touchLevel }
        = YkStatus.ofBytes .little bytes := fun e bytes => by
    simp only [YkStatus.ofBytes, ykEndianSwap16_read16]
  have hrun : ∀ e, ykGetStatus (hostOf B crc16 e) = (do
      let st ← ykReadFromKey (hostOf B crc16 .little) 0 ykStatusSize
      if st.2 ≠ ykStatusSize then failWith .EWRONGSIZ
      else pure (YkStatus.ofBytes .little st.1)) := fun e => by
    unfold ykGetStatus
    simp only [show (hostOf B crc16 e).endian = e from rfl, hstatus]
    rfl
  rw [hrun, hrun]

theorem ykWrite_hostOf (e e' : Endian) (ykCmd : UInt8) (buf : List UInt8) (len : ℕ) :
    ykWrite (hostOf B crc16 e) ykCmd buf len = ykWrite (hostOf B crc16 e') ykCmd buf len := by
  have hwait := waitLoop_hostOf B crc16 e e' 0 false slotWriteFlag
  simp only [ykWrite, ykGetStatus_hostOf e e', ykWriteToKey_hostOf e e', ykWaitForKeyStatus, hwait]

/-- The checksum is swapped before it is copied. -/
theorem commandBlock_hostOf (e : Endian) (cfg : Option YkConfig)
    (accCode : Option (Vector UInt8 accCodeSize)) :
    commandBlock (hostOf B crc16 e) (cfg.map (updateCrc (hostOf B crc16 e))) accCode
      = commandBytes crc16 cfg accCode := by
  refine commandBlock_of_bytes (fun c => ?_) fun c => ?_
  · rw [← bytes16_ykEndianSwap16 e]
    rfl
  · simp [Endian.bytes16, YkConfig.length_bytesBeforeCrc]

theorem length_commandBytes (crc16 : List UInt8 → UInt16) (cfg : Option YkConfig)
    (accCode : Option (Vector UInt8 accCodeSize)) :
    (commandBytes crc16 cfg accCode).length = 58 := by
  cases cfg <;> cases accCode <;>
    simp [commandBytes, Endian.bytes16, YkConfig.length_bytesBeforeCrc, ykConfigSize, accCodeSize]

end Congr

/-- On a host of either byte order, what is written is the same, and every 16-bit field is in the
frame low byte first. -/
structure Portable (d : YkDeviceConfig) : Prop where
  command : ∀ (σ : Type) (B : Backend σ) crc16 (w : World σ) cfg command accCode,
    writes (events (ykWriteCommand (hostOf B crc16 .big) cfg command accCode) w)
      = writes (events (ykWriteCommand (hostOf B crc16 .little) cfg command accCode) w)
  deviceConfig : ∀ (σ : Type) (B : Backend σ) crc16 (w : World σ),
    writes (events (ykWriteDeviceConfig (hostOf B crc16 .big) d) w)
      = writes (events (ykWriteDeviceConfig (hostOf B crc16 .little) d) w)
  commandFrame : ∀ (σ : Type) (B : Backend σ) (crc16 : List UInt8 → UInt16) e frame,
    Reassembles B frame → ∀ cfg command accCode w out w',
      ykWriteCommand (hostOf B crc16 e) cfg command accCode w = (.ok out, w') →
      frame w'.dev = wireFrame crc16 command (commandBytes crc16 cfg accCode)
  deviceFrame : ∀ (σ : Type) (B : Backend σ) (crc16 : List UInt8 → UInt16) e frame,
    Reassembles B frame → ∀ w w', ykWriteDeviceConfig (hostOf B crc16 e) d w = (.ok (), w') →
      frame w'.dev = wireFrame crc16 slotDeviceConfig
        ([d.mode, d.crTimeout] ++ Endian.little.bytes16 d.autoEjectTime)

theorem ykWriteCommand_hostOf (e : Endian) (w : World σ) (cfg : Option YkConfig)
    (command : UInt8) (accCode : Option (Vector UInt8 accCodeSize)) :
    (ykWriteCommand (hostOf B crc16 e) cfg command accCode w).2
      = (ykWrite (hostOf B crc16 .little) command (commandBytes crc16 cfg accCode) 58 w).2 := by
  unfold ykWriteCommand
  simp only [commandBlock_hostOf e, ykWrite_hostOf e .little, length_commandBytes]
  exact Proc.bind_state (P := (· = _)) (fun _ _ h => by rw [h]; rfl) fun _ => rfl

/-- A device that always answers that it is ready, and takes no report. -/
def deafKey : Backend Unit where
  ykusbRead _ := (.ok (ScriptedKey.statusReport 0), ())
  ykusbWrite _ _ := (.error none, ())

theorem ykWriteToKey_deafKey (e : Endian) (slot : UInt8) {buf : List UInt8}
    (h : buf.length ≤ slotDataSize) (w : World Unit) :
    ∃ t, ykWriteToKey (hostOf deafKey crc16 e) slot buf (Int32.ofNat buf.length) w
        = (.fail, w.log (t ++ [.write (partReport 0 (Buffer.part 7 (wireFrame crc16 slot buf) 0))
          false]))
      ∧ writes t = [] := by
  have hkept : Buffer.kept 0 7 10 (wireFrame crc16 slot buf) 0 = true := by simp [Buffer.kept]
  have hwait : ykWaitForKeyStatus (hostOf deafKey crc16 e) slot 0 waitForWriteFlag false
      slotWriteFlag w = (.ok (ScriptedKey.statusReport 0),
        polled w 1 [ScriptedKey.statusReport 0] ()) := by
    refine (waitLoop_read (by decide) rfl).trans ?_
    rfl
  have htake : buf.take buf.length = buf := List.take_length
  refine ⟨pollTrace 1 [ScriptedKey.statusReport 0], ?_, writes_pollTrace _ _⟩
  rw [ykWriteToKey_eq slot h (Nat.le_refl _), htake]
  refine (congrFun (sendParts_keep slot (wireFrame crc16 slot buf) rfl hkept) w).trans ?_
  rw [Proc.bind_ok hwait]
  refine (Proc.bind_fail (Backend.write_of_error rfl)).trans ?_
  simp [polled, World.log]

/-- It is offered the first report of the frame. -/
theorem ykWrite_deafKey (e : Endian) (ykCmd : UInt8) {buf : List UInt8}
    (h : buf.length ≤ slotDataSize) :
    writes (events (ykWrite (hostOf deafKey crc16 e) ykCmd buf buf.length) ⟨(), none, []⟩)
      = [partReport 0 (Buffer.part 7 (wireFrame crc16 ykCmd buf) 0)] := by
  obtain ⟨w₁, hstatus, hlog⟩ : ∃ w₁, ykGetStatus (hostOf deafKey crc16 e) ⟨(), none, []⟩
      = (.ok (statusBlock e (ScriptedKey.statusReport 0)), w₁)
        ∧ w₁.trace = [.read (some (ScriptedKey.statusReport 0))] :=
    ⟨_, ykGetStatus_of_ok (d := ()) rfl, rfl⟩
  obtain ⟨t, hwrite, ht⟩ := ykWriteToKey_deafKey crc16 e ykCmd h w₁
  have hrun : (ykWrite (hostOf deafKey crc16 e) ykCmd buf buf.length ⟨(), none, []⟩).2 = w₁.log
      (t ++ [.write (partReport 0 (Buffer.part 7 (wireFrame crc16 ykCmd buf) 0)) false]) := by
    unfold ykWrite
    rw [Proc.bind_ok hstatus]
    exact congrArg Prod.snd (Proc.bind_fail hwrite)
  rw [events, hrun]
  simp [hlog, ht]

theorem bytes_of_equal {d : YkDeviceConfig}
    (h : d.autoEjectTime.toUInt8 = (d.autoEjectTime >>> 8).toUInt8) (e : Endian) :
    d.bytes e = [d.mode, d.crTimeout] ++ Endian.little.bytes16 d.autoEjectTime := by
  cases e with
  | little => rfl
  | big => simp only [YkDeviceConfig.bytes, Endian.bytes16, h]

theorem writes_deafKey (e : Endian) (d : YkDeviceConfig) :
    writes (events (ykWriteDeviceConfig (hostOf deafKey (fun _ => 0) e) d) ⟨(), none, []⟩)
      = [partReport 0 (d.bytes e ++ [0, 0, 0])] := by
  have hlen := d.length_bytes e
  have hwrite := ykWrite_deafKey (fun _ => 0) e slotDeviceConfig
    (show (d.bytes e).length ≤ slotDataSize by rw [hlen]; decide)
  rw [hlen] at hwrite
  refine hwrite.trans ?_
  cases e <;> rfl

/-- The device configuration is sent as it lies in memory: only a time whose two bytes are equal
lies there in the same way on every host. -/
theorem portable_iff (d : YkDeviceConfig) :
    Portable d ↔ d.autoEjectTime.toUInt8 = (d.autoEjectTime >>> 8).toUInt8 := by
  constructor
  · intro h
    have hreports := h.deviceConfig Unit deafKey (fun _ => 0) ⟨(), none, []⟩
    rw [writes_deafKey, writes_deafKey, List.singleton_inj] at hreports
    have hdata := congrArg Report.data hreports
    rw [data_partReport (by cases d; rfl), data_partReport (by cases d; rfl)] at hdata
    simp only [YkDeviceConfig.bytes, Endian.bytes16, List.cons_append, List.nil_append,
      List.cons.injEq] at hdata
    exact hdata.2.2.2.1
  · intro h
    refine ⟨fun σ B crc16 w cfg command accCode => ?_, fun σ B crc16 w => ?_,
      fun σ B crc16 e frame hdev cfg command accCode w out w' hw => ?_,
      fun σ B crc16 e frame hdev w w' hw => ?_⟩
    · simp only [events, ykWriteCommand_hostOf]
    · simp only [ykWriteDeviceConfig, ykWrite_hostOf .big .little,
        show ∀ e, (hostOf B crc16 e).endian = e from fun _ => rfl, bytes_of_equal h]
    · obtain ⟨u, w₁, hwrite, hout⟩ := Proc.bind_eq_ok.1 hw
      obtain rfl : w₁ = w' := (Prod.mk.inj hout).2
      simp only [commandBlock_hostOf e] at hwrite
      obtain ⟨before, w₂, w₃, after, w₄, hwritten, rfl⟩ := ykWrite_ok hwrite
      have hlen := length_commandBytes crc16 cfg accCode
      have hframe := hwritten.frame hdev (by rw [hlen]; decide) (Nat.le_refl _)
      rwa [List.take_length] at hframe
    · obtain ⟨before, w₂, w₃, after, w₄, hwritten, rfl⟩ := ykWrite_ok hw
      have hlen := d.length_bytes e
      have hframe : frame w₄.dev
          = wireFrame crc16 slotDeviceConfig ((d.bytes e).take ykDeviceConfigSize) :=
        hwritten.frame hdev (by decide) (Nat.le_of_eq hlen.symm)
      rwa [List.take_of_length_le (Nat.le_of_eq hlen), bytes_of_equal h e] at hframe

/-- A time of one second is sent as 256 seconds by a host that keeps the high byte first. -/
theorem portable_one_second :
    writes (events (ykWriteDeviceConfig (hostOf deafKey (fun _ => 0) .big) ⟨0x86, 15, 1⟩)
        ⟨(), none, []⟩) = [#v[0x86, 15, 0, 1, 0, 0, 0, 0x80]]
      ∧ writes (events (ykWriteDeviceConfig (hostOf deafKey (fun _ => 0) .little) ⟨0x86, 15, 1⟩)
        ⟨(), none, []⟩) = [#v[0x86, 15, 1, 0, 0, 0, 0, 0x80]]
      ∧ ¬ Portable ⟨0x86, 15, 1⟩ := by
  have hbig := writes_deafKey .big ⟨0x86, 15, 1⟩
  have hlittle := writes_deafKey .little ⟨0x86, 15, 1⟩
  refine ⟨hbig.trans (by decide), hlittle.trans (by decide), fun h => ?_⟩
  have hsame := h.deviceConfig Unit deafKey (fun _ => 0) ⟨(), none, []⟩
  rw [hbig, hlittle] at hsame
  exact absurd hsame (by decide)

end YkPers
