import Mathlib.Data.List.Basic
import Mathlib.Algebra.Group.Int.Defs
import Mathlib.Algebra.Group.Nat.Defs

/-!
# Structures and constants of the key's protocol

The packed structures of `ykdef.h` and their bytes in memory, which for a 16-bit field depend on
the host's byte order, and the constants that `ykcore.c`, `ykpers.c` and `ykpers-args.c` name.
-/

namespace YkPers

/-- The arithmetic of `unsigned int`. -/
def u32 (n : ℕ) : ℕ := n % 2 ^ 32

/-- The conversion to `size_t`. -/
def sizeT (n : Int32) : ℕ := (n.toInt % 2 ^ 64).toNat

theorem sizeT_ofNat {n : ℕ} (h : n < 2 ^ 31) : sizeT (Int32.ofNat n) = n := by
  rw [sizeT, Int32.toInt_ofNat_of_lt h]
  omega

/-- A negative count is larger than any buffer. -/
theorem sizeT_of_outside {n : Int32} {m : ℕ} (hm : m < 2 ^ 31) (h : n < 0 ∨ Int32.ofNat m < n) :
    m < sizeT n := by
  have hmin := n.minValue_le_toInt
  have hmax := n.toInt_lt
  rw [Int32.lt_iff_toInt_lt, Int32.lt_iff_toInt_lt, Int32.toInt_ofNat_of_lt hm] at h
  simp only [Int32.toInt_zero, Int32.toInt_minValue] at h hmin
  rw [sizeT]
  omega

/-- An `unsigned int` beyond `m` stays beyond it, or turns negative. -/
theorem lt_sizeT_ofNat {m n : ℕ} (hm : m < 2 ^ 31) (h : m < n) (hn : n < 2 ^ 32) :
    m < sizeT (Int32.ofNat n) := by
  rw [sizeT, Int32.toInt_ofNat', Int.bmod_def]
  simp only [Int32.size]
  split_ifs <;> omega

inductive Endian where
  | little
  | big
  deriving DecidableEq

def Endian.bytes16 : Endian → UInt16 → List UInt8
  | .little, x => [x.toUInt8, (x >>> 8).toUInt8]
  | .big, x => [(x >>> 8).toUInt8, x.toUInt8]

def Endian.read16 : Endian → UInt8 → UInt8 → UInt16
  | .little, b₀, b₁ => b₀.toUInt16 ||| (b₁.toUInt16 <<< 8)
  | .big, b₀, b₁ => b₁.toUInt16 ||| (b₀.toUInt16 <<< 8)

/-- The codes of `yk_errno` other than 0. -/
inductive YkErr where
  | EUSBERR | EWRONGSIZ | EWRITEERR | ETIMEOUT | ENOKEY | EFIRMWARE | ENOMEM | ENOSTATUS
  | ENOTYETIMPL | ECHECKSUM | EWOULDBLOCK | EINVALIDCMD | EMORETHANONE | ENODATA
  deriving DecidableEq

/-! ## Reports -/

abbrev featureRptSize : ℕ := 8

/-- A feature report: seven data bytes and a status byte. -/
abbrev Report := Vector UInt8 featureRptSize

namespace Report

def status (r : Report) : UInt8 := r[7]

def data (r : Report) : List UInt8 := r.toList.take 7

def ofBytes (l : List UInt8) : Report := Vector.ofFn fun i => l.getD i 0

@[simp] theorem length_data (r : Report) : r.data.length = 7 := by
  simp [data, featureRptSize]

theorem toList_ofBytes {l : List UInt8} (h : l.length = featureRptSize) :
    (ofBytes l).toList = l := by
  apply List.ext_getElem
  · simp [h]
  · intro i h1 h2
    simp [ofBytes, h2]

theorem data_ofBytes {l : List UInt8} (h : l.length = 7) (b : UInt8) :
    (ofBytes (l ++ [b])).data = l := by
  rw [data, toList_ofBytes (by simp [h])]
  simp [h]

theorem status_ofBytes {l : List UInt8} (h : l.length = 7) (b : UInt8) :
    (ofBytes (l ++ [b])).status = b := by
  simp [status, ofBytes, h]

end Report

def respTimeoutWaitFlag : UInt8 := 0x20
def respPendingFlag : UInt8 := 0x40
def slotWriteFlag : UInt8 := 0x80
def dummyReportWrite : UInt8 := 0x8f

/-! ## Slots -/

def slotConfig : UInt8 := 1
def slotConfig2 : UInt8 := 3
def slotUpdate1 : UInt8 := 4
def slotUpdate2 : UInt8 := 5
def slotSwap : UInt8 := 6
def slotNdef : UInt8 := 8
def slotNdef2 : UInt8 := 9
def slotDeviceSerial : UInt8 := 0x10
def slotDeviceConfig : UInt8 := 0x11
def slotScanMap : UInt8 := 0x12
def slotYk4Capabilities : UInt8 := 0x13
def slotYk4SetDeviceInfo : UInt8 := 0x15
def slotChalOtp1 : UInt8 := 0x20
def slotChalOtp2 : UInt8 := 0x28
def slotChalHmac1 : UInt8 := 0x30
def slotChalHmac2 : UInt8 := 0x38

/-! ## The frame -/

abbrev slotDataSize : ℕ := 64

structure YkFrame where
  payload : Vector UInt8 slotDataSize
  slot : UInt8
  crc : UInt16
  filler : Vector UInt8 3

def YkFrame.bytes (e : Endian) (f : YkFrame) : List UInt8 :=
  f.payload.toList ++ [f.slot] ++ e.bytes16 f.crc ++ f.filler.toList

/-! ## The configuration -/

abbrev uidSize : ℕ := 6
/-- `FIXED_SIZE`. -/
abbrev maxFixedSize : ℕ := 16
abbrev keySize : ℕ := 16
abbrev accCodeSize : ℕ := 6

structure YkConfig where
  fixed : Vector UInt8 maxFixedSize
  uid : Vector UInt8 uidSize
  key : Vector UInt8 keySize
  accCode : Vector UInt8 accCodeSize
  fixedSize : UInt8
  extFlags : UInt8
  tktFlags : UInt8
  cfgFlags : UInt8
  rfu : Vector UInt8 2
  crc : UInt16
  deriving DecidableEq

def YkConfig.bytesBeforeCrc (c : YkConfig) : List UInt8 :=
  c.fixed.toList ++ c.uid.toList ++ c.key.toList ++ c.accCode.toList ++
    [c.fixedSize, c.extFlags, c.tktFlags, c.cfgFlags] ++ c.rfu.toList

def YkConfig.bytes (e : Endian) (c : YkConfig) : List UInt8 :=
  c.bytesBeforeCrc ++ e.bytes16 c.crc

abbrev ykConfigSize : ℕ := 52

/-! ## Flags

Some values mean different things by version and mode. -/

def tktflagTabFirst : UInt8 := 0x01
def tktflagAppendTab1 : UInt8 := 0x02
def tktflagAppendTab2 : UInt8 := 0x04
def tktflagAppendDelay1 : UInt8 := 0x08
def tktflagAppendDelay2 : UInt8 := 0x10
def tktflagAppendCr : UInt8 := 0x20
def tktflagProtectCfg2 : UInt8 := 0x80
def tktflagOathHotp : UInt8 := 0x40
def tktflagChalResp : UInt8 := 0x40

def cfgflagSendRef : UInt8 := 0x01
def cfgflagPacing10ms : UInt8 := 0x04
def cfgflagPacing20ms : UInt8 := 0x08
def cfgflagStaticTicket : UInt8 := 0x20
def cfgflagTicketFirst : UInt8 := 0x02
def cfgflagAllowHidtrig : UInt8 := 0x10
def cfgflagShortTicket : UInt8 := 0x02
def cfgflagStrongPw1 : UInt8 := 0x10
def cfgflagStrongPw2 : UInt8 := 0x40
def cfgflagManUpdate : UInt8 := 0x80
def cfgflagOathHotp8 : UInt8 := 0x02
def cfgflagOathFixedModhex1 : UInt8 := 0x10
def cfgflagOathFixedModhex2 : UInt8 := 0x40
def cfgflagOathFixedModhex : UInt8 := 0x50
def cfgflagChalYubico : UInt8 := 0x20
def cfgflagChalHmac : UInt8 := 0x22
def cfgflagHmacLt64 : UInt8 := 0x04
def cfgflagChalBtnTrig : UInt8 := 0x08

def extflagSerialBtnVisible : UInt8 := 0x01
def extflagSerialUsbVisible : UInt8 := 0x02
def extflagSerialApiVisible : UInt8 := 0x04
def extflagUseNumericKeypad : UInt8 := 0x08
def extflagFastTrig : UInt8 := 0x10
def extflagAllowUpdate : UInt8 := 0x20
def extflagDormant : UInt8 := 0x40
def extflagLedInv : UInt8 := 0x80

def tktflagUpdateMask : UInt8 :=
  tktflagTabFirst ||| tktflagAppendTab1 ||| tktflagAppendTab2 ||| tktflagAppendDelay1 |||
    tktflagAppendDelay2 ||| tktflagAppendCr
def cfgflagUpdateMask : UInt8 := cfgflagPacing10ms ||| cfgflagPacing20ms
def extflagUpdateMask : UInt8 :=
  extflagSerialBtnVisible ||| extflagSerialUsbVisible ||| extflagSerialApiVisible |||
    extflagUseNumericKeypad ||| extflagFastTrig ||| extflagAllowUpdate ||| extflagDormant |||
    extflagLedInv

/-! ## NDEF records, device configuration, scan map -/

abbrev ndefDataSize : ℕ := 54

structure YkNdef where
  len : UInt8
  type : UInt8
  data : Vector UInt8 ndefDataSize
  curAccCode : Vector UInt8 accCodeSize
  deriving DecidableEq

def YkNdef.bytes (n : YkNdef) : List UInt8 :=
  [n.len, n.type] ++ n.data.toList ++ n.curAccCode.toList

abbrev ykNdefSize : ℕ := 62

structure YkDeviceConfig where
  mode : UInt8
  crTimeout : UInt8
  autoEjectTime : UInt16
  deriving DecidableEq

def YkDeviceConfig.bytes (e : Endian) (d : YkDeviceConfig) : List UInt8 :=
  [d.mode, d.crTimeout] ++ e.bytes16 d.autoEjectTime

abbrev ykDeviceConfigSize : ℕ := 4

/-! The USB modes without OTP. -/

def modeCcid : UInt8 := 0x01
def modeU2f : UInt8 := 0x03
def modeU2fCcid : UInt8 := 0x05

def scanMap : String := "cbdefghijklnrtuvCBDEFGHIJKLNRTUV0123456789!\t\r"

/-! ## The status block -/

structure YkStatus where
  versionMajor : UInt8
  versionMinor : UInt8
  versionBuild : UInt8
  pgmSeq : UInt8
  touchLevel : UInt16
  deriving DecidableEq

abbrev ykStatusSize : ℕ := 6

def config1Valid : UInt16 := 0x01
def config2Valid : UInt16 := 0x02

theorem YkFrame.length_bytes (e : Endian) (f : YkFrame) : (f.bytes e).length = 70 := by
  cases e <;> simp [YkFrame.bytes, Endian.bytes16]

theorem YkConfig.length_bytesBeforeCrc (c : YkConfig) : c.bytesBeforeCrc.length = 50 := by
  simp [YkConfig.bytesBeforeCrc, maxFixedSize, uidSize, keySize, accCodeSize]

theorem YkConfig.length_bytes (e : Endian) (c : YkConfig) : (c.bytes e).length = ykConfigSize := by
  cases e <;> simp [YkConfig.bytes, Endian.bytes16, YkConfig.length_bytesBeforeCrc]

theorem YkNdef.length_bytes (n : YkNdef) : n.bytes.length = ykNdefSize := by
  simp [YkNdef.bytes, ndefDataSize, accCodeSize, ykNdefSize]

theorem YkDeviceConfig.length_bytes (e : Endian) (d : YkDeviceConfig) :
    (d.bytes e).length = ykDeviceConfigSize := by
  cases e <;> simp [YkDeviceConfig.bytes, Endian.bytes16]

end YkPers
