import YkPers.Ykdef
import YkPers.Lib.Proc

/-!
# The configuration of `ykpers.c`

The procedures run on a configuration and `ykp_errno`; returning 0 (for the `_from_hex` and
`_from_raw` functions, 1) is `fail`. Version checks, flag setters and character fields are one
definition each, which the functions that the source writes by macro apply to their own values.
-/

namespace YkPers

/-- The codes of `ykp_errno` other than 0. -/
inductive YkpErr where
  | ENOTYETIMPL | ENOCFG | EYUBIKEYVER | EOLDYUBIKEY | EINVCONFNUM | EINVAL | ENORANDOM
  deriving DecidableEq

structure YkpConfig where
  ykMajorVersion : UInt8
  ykMinorVersion : UInt8
  ykBuildVersion : UInt8
  command : UInt8
  ykcoreConfig : YkConfig
  ykpAcccodeType : UInt32
  deriving DecidableEq

def ykpAlloc : YkpConfig where
  ykMajorVersion := 0
  ykMinorVersion := 0
  ykBuildVersion := 0
  command := 0
  ykcoreConfig :=
    { fixed := Vector.replicate _ 0, uid := Vector.replicate _ 0, key := Vector.replicate _ 0,
      accCode := Vector.replicate _ 0, fixedSize := 0, extFlags := 0, tktFlags := 0,
      cfgFlags := 0, rfu := Vector.replicate _ 0, crc := 0 }
  ykpAcccodeType := 0

structure YkpState where
  cfg : YkpConfig
  ykpErrno : Option YkpErr
  deriving DecidableEq

/-- `ykp_errno` is set and the error value returned. -/
def ykpError (e : YkpErr) : Proc YkpState Unit := do
  Proc.modify fun s => { s with ykpErrno := some e }
  Proc.fail

def ykpStore (f : YkConfig → YkConfig) : Proc YkpState Unit :=
  Proc.modify fun s => { s with cfg.ykcoreConfig := f s.cfg.ykcoreConfig }

def ykpClearConfig : Proc YkpState Unit :=
  ykpStore fun c => { c with tktFlags := 0, cfgFlags := 0, extFlags := 0 }

def ykpConfigureVersion (st : YkStatus) : Proc YkpState Unit :=
  Proc.modify fun s => { s with
    cfg.ykMajorVersion := st.versionMajor
    cfg.ykMinorVersion := st.versionMinor
    cfg.ykBuildVersion := st.versionBuild }

/-- What the `switch` of `ykp_configure_command` finds wrong with a command. -/
def commandError (cfg : YkpConfig) (command : UInt8) : Option YkpErr :=
  if command = slotConfig then none
  else if command = slotConfig2 then
    if ¬ cfg.ykMajorVersion ≥ 2 then some .EOLDYUBIKEY
    -- the NEO beta counts from 2.1.4 and has no second slot
    else if cfg.ykMajorVersion = 2 ∧ cfg.ykMinorVersion = 1 ∧ cfg.ykBuildVersion ≥ 4 then
      some .EYUBIKEYVER
    else none
  else if command = slotUpdate1 ∨ command = slotUpdate2 ∨ command = slotSwap then
    if ¬ ((cfg.ykMajorVersion = 2 ∧ cfg.ykMinorVersion ≥ 3) ∨ cfg.ykMajorVersion > 2) then
      some .EOLDYUBIKEY
    else none
  else if command = slotDeviceConfig then
    if ¬ cfg.ykMajorVersion ≤ 5 then some .EYUBIKEYVER
    else if ¬ cfg.ykMajorVersion ≥ 3 then some .EYUBIKEYVER
    else none
  else if command = slotScanMap then
    if ¬ cfg.ykMajorVersion ≥ 3 then some .EYUBIKEYVER else none
  else if command = slotYk4SetDeviceInfo then
    if ¬ cfg.ykMajorVersion ≥ 5 then some .EYUBIKEYVER else none
  else if command = slotNdef2 then
    if cfg.ykMajorVersion ≠ 3 ∧ cfg.ykMajorVersion ≠ 5 then some .EYUBIKEYVER else none
  else if command = slotNdef then
    if ¬ ((cfg.ykMajorVersion = 2 ∧ cfg.ykMinorVersion = 1 ∧ cfg.ykBuildVersion ≥ 4) ∨
        cfg.ykMajorVersion = 3 ∨ cfg.ykMajorVersion ≥ 5) then some .EYUBIKEYVER
    else none
  else some .EINVCONFNUM

def ykpConfigureCommand (command : UInt8) : Proc YkpState Unit := do
  let s ← Proc.get
  match commandError s.cfg command with
  | some e => ykpError e
  | none => Proc.modify fun s => { s with cfg.command := command }

def defaultConfig1 : YkConfig := { ykpAlloc.ykcoreConfig with tktFlags := tktflagAppendCr }

def defaultConfig2 : YkConfig :=
  { defaultConfig1 with
    cfgFlags := cfgflagStaticTicket ||| cfgflagStrongPw1 ||| cfgflagStrongPw2 |||
      cfgflagManUpdate }

/-- `ykp_acccode_type` is what the memory held. -/
def ykpCreateConfig (ykpAcccodeType : UInt32) : YkpConfig where
  ykMajorVersion := 1
  ykMinorVersion := 3
  ykBuildVersion := 0
  command := slotConfig
  ykcoreConfig := defaultConfig1
  ykpAcccodeType := ykpAcccodeType

def ykpConfigureFor (confnum : Int32) (st : YkStatus) : Proc YkpState Unit := do
  ykpConfigureVersion st
  if confnum = 1 then do
    ykpStore fun _ => defaultConfig1
    ykpConfigureCommand slotConfig
  else if confnum = 2 then do
    ykpStore fun _ => defaultConfig2
    ykpConfigureCommand slotConfig2
  else ykpError .EINVCONFNUM

/-- 1 or 2, or `ykp_errno` is set and 0 returned. -/
def ykpConfigNum : Proc YkpState ℕ := do
  let s ← Proc.get
  if s.cfg.command = slotConfig then pure 1
  else if s.cfg.command = slotConfig2 then pure 2
  else do
    Proc.modify fun s => { s with ykpErrno := some .ENOCFG }
    pure 0

def ykpSetAcccodeType (type : UInt32) : Proc YkpState Unit :=
  Proc.modify fun s => { s with cfg.ykpAcccodeType := type }

/-! ## Version checks -/

def vcheckAll (_ : YkpConfig) : Bool := true

def vcheckV1 (c : YkpConfig) : Bool := c.ykMajorVersion = 1

def vcheckNoV1 (c : YkpConfig) : Bool := c.ykMajorVersion > 1

def vcheckV21OrGreater (c : YkpConfig) : Bool :=
  (c.ykMajorVersion = 2 && c.ykMinorVersion > 1) ||
    (c.ykMajorVersion = 2 && c.ykMinorVersion = 1 && c.ykBuildVersion ≤ 3) ||
    c.ykMajorVersion > 2

def vcheckV2OrGreater (minor : UInt8) (c : YkpConfig) : Bool :=
  (c.ykMajorVersion = 2 && c.ykMinorVersion ≥ minor) || c.ykMajorVersion > 2

def vcheckV22OrGreater : YkpConfig → Bool := vcheckV2OrGreater 2
def vcheckV23OrGreater : YkpConfig → Bool := vcheckV2OrGreater 3
def vcheckV24OrGreater : YkpConfig → Bool := vcheckV2OrGreater 4

def vcheckV30 (c : YkpConfig) : Bool := c.ykMajorVersion = 3 && c.ykMinorVersion = 0

def vcheckNeo (c : YkpConfig) : Bool :=
  c.ykMajorVersion = 2 && c.ykMinorVersion = 1 && c.ykBuildVersion ≥ 4

def vcheckNeoBefore5 (c : YkpConfig) : Bool := vcheckNeo c && c.ykBuildVersion < 5

def vcheckNeoAfter6 (c : YkpConfig) : Bool := vcheckNeo c && c.ykBuildVersion > 6

def capabilityHasHidtrig : YkpConfig → Bool := vcheckV1
def capabilityHasTicketFirst : YkpConfig → Bool := vcheckV1
def capabilityHasStatic (c : YkpConfig) : Bool := vcheckAll c && !vcheckNeoBefore5 c
def capabilityHasStaticExtras (c : YkpConfig) : Bool := vcheckNoV1 c && !vcheckNeoBefore5 c
def capabilityHasSlotTwo (c : YkpConfig) : Bool := vcheckNoV1 c && !vcheckNeo c
def capabilityHasChalResp : YkpConfig → Bool := vcheckV22OrGreater
def capabilityHasOathImf (c : YkpConfig) : Bool := vcheckV22OrGreater c || vcheckNeoAfter6 c
def capabilityHasSerialApi (c : YkpConfig) : Bool := vcheckV22OrGreater c || vcheckNeo c
def capabilityHasSerial : YkpConfig → Bool := vcheckV22OrGreater
def capabilityHasOath (c : YkpConfig) : Bool := vcheckV21OrGreater c || vcheckNeo c
def capabilityHasTicketMods : YkpConfig → Bool := vcheckAll
def capabilityHasUpdate : YkpConfig → Bool := vcheckV23OrGreater
def capabilityHasFast : YkpConfig → Bool := vcheckV23OrGreater
def capabilityHasNumeric : YkpConfig → Bool := vcheckV23OrGreater
def capabilityHasDormant : YkpConfig → Bool := vcheckV23OrGreater
def capabilityHasLedInv (c : YkpConfig) : Bool := vcheckV24OrGreater c && !vcheckV30 c

/-! ## Character fields -/

/-- The first `size` bytes of the input, and zeros behind them. -/
def charfield (size : ℕ) (input : List UInt8) : Vector UInt8 size :=
  Vector.ofFn fun i => input.getD i 0

theorem toList_charfield {size : ℕ} {input : List UInt8} (h : size ≤ input.length) :
    (charfield size input).toList = input.take size := by
  refine List.ext_getElem (by simp [h]) fun i h1 h2 => ?_
  rw [Vector.length_toList] at h1
  simp [charfield, List.getD_eq_getElem?_getD, Nat.lt_of_lt_of_le h1 h]

theorem toList_charfield_of_le {size : ℕ} {input : List UInt8} (h : input.length ≤ size) :
    (charfield size input).toList = input ++ List.replicate (size - input.length) 0 := by
  refine List.ext_getElem (by simp [h]) fun i h1 h2 => ?_
  rcases Nat.lt_or_ge i input.length with hi | hi <;>
    simp [charfield, List.getD_eq_getElem?_getD, hi, Nat.not_lt.2]

/-- `def_set_charfield`, with what it stores as a function of the input. -/
def ykpSetCharfield (capability : YkpConfig → Bool) (f : List UInt8 → YkConfig → YkConfig)
    (input : List UInt8) : Proc YkpState Unit := do
  let s ← Proc.get
  if capability s.cfg then ykpStore (f input) else ykpError .EYUBIKEYVER

def ykpSetAccessCode : List UInt8 → Proc YkpState Unit :=
  ykpSetCharfield vcheckAll fun input c => { c with accCode := charfield _ input }

def ykpSetFixed : List UInt8 → Proc YkpState Unit :=
  ykpSetCharfield vcheckAll fun input c => { c with
    fixed := charfield _ input
    fixedSize := UInt8.ofNat (min input.length maxFixedSize) }

def ykpSetUid : List UInt8 → Proc YkpState Unit :=
  ykpSetCharfield vcheckAll fun input c => { c with uid := charfield _ input }

/-- The moving factor, in sixteenths, goes into the last two bytes of `uid`. -/
def ykpSetOathImf (imf : ℕ) : Proc YkpState Unit := do
  let s ← Proc.get
  if ¬ capabilityHasOathImf s.cfg then ykpError .EYUBIKEYVER
  else if imf > 65535 * 16 then ykpError .EINVAL
  else if imf % 16 ≠ 0 then ykpError .EINVAL
  else ykpStore fun c => { c with
    uid := (c.uid.set 4 (UInt8.ofNat (imf / 16 / 256))).set 5 (UInt8.ofNat (imf / 16)) }

def YkpConfig.withImf (c : YkpConfig) (imf : ℕ) : YkpConfig :=
  { c with ykcoreConfig := { c.ykcoreConfig with
      uid := (c.ykcoreConfig.uid.set 4 (UInt8.ofNat (imf / 16 / 256))).set 5
        (UInt8.ofNat (imf / 16)) } }

abbrev YkConfig.imfHigh (c : YkConfig) : UInt8 := c.uid[4]
abbrev YkConfig.imfLow (c : YkConfig) : UInt8 := c.uid[5]

def ykpGetOathImf (cfg : YkpConfig) : ℕ :=
  if ¬ capabilityHasOathImf cfg then 0
  else ((cfg.ykcoreConfig.uid[4].toNat <<< 8) ||| cfg.ykcoreConfig.uid[5].toNat) <<< 4

/-! ## Flags -/

inductive FlagField where
  | tkt | cfg | ext
  deriving DecidableEq

def YkConfig.flags (c : YkConfig) : FlagField → UInt8
  | .tkt => c.tktFlags
  | .cfg => c.cfgFlags
  | .ext => c.extFlags

def YkConfig.setFlags (c : YkConfig) : FlagField → UInt8 → YkConfig
  | .tkt, x => { c with tktFlags := x }
  | .cfg, x => { c with cfgFlags := x }
  | .ext, x => { c with extFlags := x }

/-- `def_set_tktflag`, `def_set_cfgflag` and `def_set_extflag`. -/
def ykpSetFlag (field : FlagField) (flag : UInt8) (capability : YkpConfig → Bool)
    (state : Bool) : Proc YkpState Unit := do
  let s ← Proc.get
  if capability s.cfg then
    ykpStore fun c => c.setFlags field (if state then c.flags field ||| flag
      else c.flags field &&& ~~~flag)
  else ykpError .EYUBIKEYVER

def ykpGetFlag (field : FlagField) (flag : UInt8) (cfg : YkpConfig) : Bool :=
  cfg.ykcoreConfig.flags field &&& flag = flag

def ykpSetTktflagTabFirst := ykpSetFlag .tkt tktflagTabFirst capabilityHasTicketMods
def ykpSetTktflagAppendTab1 := ykpSetFlag .tkt tktflagAppendTab1 capabilityHasTicketMods
def ykpSetTktflagAppendTab2 := ykpSetFlag .tkt tktflagAppendTab2 capabilityHasTicketMods
def ykpSetTktflagAppendDelay1 := ykpSetFlag .tkt tktflagAppendDelay1 capabilityHasTicketMods
def ykpSetTktflagAppendDelay2 := ykpSetFlag .tkt tktflagAppendDelay2 capabilityHasTicketMods
def ykpSetTktflagAppendCr := ykpSetFlag .tkt tktflagAppendCr capabilityHasTicketMods
def ykpSetTktflagProtectCfg2 := ykpSetFlag .tkt tktflagProtectCfg2 capabilityHasSlotTwo
def ykpSetTktflagOathHotp := ykpSetFlag .tkt tktflagOathHotp capabilityHasOath
def ykpSetTktflagChalResp := ykpSetFlag .tkt tktflagChalResp capabilityHasChalResp

def ykpSetCfgflagSendRef := ykpSetFlag .cfg cfgflagSendRef capabilityHasTicketMods
def ykpSetCfgflagTicketFirst := ykpSetFlag .cfg cfgflagTicketFirst capabilityHasTicketFirst
def ykpSetCfgflagPacing10ms := ykpSetFlag .cfg cfgflagPacing10ms capabilityHasTicketMods
def ykpSetCfgflagPacing20ms := ykpSetFlag .cfg cfgflagPacing20ms capabilityHasTicketMods
def ykpSetCfgflagAllowHidtrig := ykpSetFlag .cfg cfgflagAllowHidtrig capabilityHasHidtrig
def ykpSetCfgflagStaticTicket := ykpSetFlag .cfg cfgflagStaticTicket capabilityHasStatic
def ykpSetCfgflagShortTicket := ykpSetFlag .cfg cfgflagShortTicket capabilityHasStaticExtras
def ykpSetCfgflagStrongPw1 := ykpSetFlag .cfg cfgflagStrongPw1 capabilityHasStaticExtras
def ykpSetCfgflagStrongPw2 := ykpSetFlag .cfg cfgflagStrongPw2 capabilityHasStaticExtras
def ykpSetCfgflagManUpdate := ykpSetFlag .cfg cfgflagManUpdate capabilityHasStaticExtras
def ykpSetCfgflagOathHotp8 := ykpSetFlag .cfg cfgflagOathHotp8 capabilityHasOath
def ykpSetCfgflagOathFixedModhex1 := ykpSetFlag .cfg cfgflagOathFixedModhex1 capabilityHasOath
def ykpSetCfgflagOathFixedModhex2 := ykpSetFlag .cfg cfgflagOathFixedModhex2 capabilityHasOath
def ykpSetCfgflagOathFixedModhex := ykpSetFlag .cfg cfgflagOathFixedModhex capabilityHasOath
def ykpSetCfgflagChalYubico := ykpSetFlag .cfg cfgflagChalYubico capabilityHasChalResp
def ykpSetCfgflagChalHmac := ykpSetFlag .cfg cfgflagChalHmac capabilityHasChalResp
def ykpSetCfgflagHmacLt64 := ykpSetFlag .cfg cfgflagHmacLt64 capabilityHasChalResp
def ykpSetCfgflagChalBtnTrig := ykpSetFlag .cfg cfgflagChalBtnTrig capabilityHasChalResp

def ykpSetExtflagSerialBtnVisible := ykpSetFlag .ext extflagSerialBtnVisible capabilityHasSerial
def ykpSetExtflagSerialUsbVisible := ykpSetFlag .ext extflagSerialUsbVisible capabilityHasSerial
def ykpSetExtflagSerialApiVisible :=
  ykpSetFlag .ext extflagSerialApiVisible capabilityHasSerialApi
def ykpSetExtflagUseNumericKeypad :=
  ykpSetFlag .ext extflagUseNumericKeypad capabilityHasNumeric
def ykpSetExtflagFastTrig := ykpSetFlag .ext extflagFastTrig capabilityHasFast
def ykpSetExtflagAllowUpdate := ykpSetFlag .ext extflagAllowUpdate capabilityHasUpdate
def ykpSetExtflagDormant := ykpSetFlag .ext extflagDormant capabilityHasDormant
def ykpSetExtflagLedInv := ykpSetFlag .ext extflagLedInv capabilityHasLedInv

def ykpGetTktflagOathHotp := ykpGetFlag .tkt tktflagOathHotp
def ykpGetTktflagChalResp := ykpGetFlag .tkt tktflagChalResp
def ykpGetCfgflagChalYubico := ykpGetFlag .cfg cfgflagChalYubico
def ykpGetCfgflagChalHmac := ykpGetFlag .cfg cfgflagChalHmac

/-! ## Keys -/

/-- In bytes. -/
def ykpGetSupportedKeyLength (cfg : YkpConfig) : ℕ :=
  if (ykpGetTktflagOathHotp cfg && !ykpGetCfgflagChalYubico cfg) ||
      (ykpGetTktflagChalResp cfg && ykpGetCfgflagChalHmac cfg) then 20 else 16

theorem ykpGetSupportedKeyLength_cases (cfg : YkpConfig) :
    ykpGetSupportedKeyLength cfg = 20 ∨ ykpGetSupportedKeyLength cfg = 16 := by
  unfold ykpGetSupportedKeyLength
  split_ifs
  · exact .inl rfl
  · exact .inr rfl

def ykpAesKeyFromRaw (key : List UInt8) : Proc YkpState Unit :=
  ykpStore fun c => { c with key := charfield _ key }

/-- The last four bytes go into the front of `uid`. -/
def ykpHmacKeyFromRaw (key : List UInt8) : Proc YkpState Unit :=
  ykpStore fun c => { c with
    key := charfield _ key
    uid := charfield _ ((key.drop keySize).take 4 ++ c.uid.toList.drop 4) }

section KeyFromHex

variable (yubikeyHexP : List Char → Bool) (yubikeyHexDecode : List Char → (n : ℕ) → Vector UInt8 n)

/-- A key of so many digits, with what is stored as a function of the decoded bytes. -/
def ykpKeyFromHex (digits : ℕ) (f : List UInt8 → YkConfig → YkConfig) (hexkey : List Char) :
    Proc YkpState Unit :=
  if hexkey.length ≠ digits then ykpError .EINVAL
  else if !yubikeyHexP hexkey then ykpError .EINVAL
  else ykpStore (f (yubikeyHexDecode hexkey 256).toList)

def ykpAesKeyFromHex : List Char → Proc YkpState Unit :=
  ykpKeyFromHex yubikeyHexP yubikeyHexDecode 32 fun aesbin c => { c with key := charfield _ aesbin }

def ykpHmacKeyFromHex : List Char → Proc YkpState Unit :=
  ykpKeyFromHex yubikeyHexP yubikeyHexDecode 40 fun aesbin c => { c with
    key := charfield _ aesbin
    uid := charfield _ ((aesbin.drop keySize).take 4 ++ c.uid.toList.drop 4) }

end KeyFromHex

/-! ## The command is set by `ykp_configure_command` only -/

def SameCommand (s s' : YkpState) : Prop := s'.cfg.command = s.cfg.command

theorem ykpConfigureCommand_ok {command : UInt8} {s s' : YkpState}
    (h : ykpConfigureCommand command s = (.ok ⟨⟩, s')) :
    commandError s.cfg command = none ∧ s'.cfg.command = command := by
  rw [ykpConfigureCommand, Proc.get_bind_run] at h
  rcases hc : commandError s.cfg command with _ | e <;> rw [hc] at h
  · obtain rfl : { s with cfg.command := command } = s' := by simpa using h
    exact ⟨rfl, rfl⟩
  · simp [ykpError] at h

end YkPers
