import YkPers.Lib.Decimal
import YkPers.Ykchalresp

/-!
# Information about a key, `ykinfo.c`

`ykinfo` is `main`. The source was copied from `ykchalresp.c`, and what it still has in common with
it is taken from there: the state of the program, whose log of challenges stays empty,
`report_yk_error`, and the end behind the label `err`. Messages of the operating system and of
`getopt` are left out.
-/

namespace YkPers

namespace Ykinfo

open Proc (modify fault attempt)
open Ykchalresp (Message State onlyIf)

def optstring : List Char := "asmn:HvtpqhV12iIc".toList

/-! ## The environment -/

/-- What the program only reads; `buf` is what stands in an array before it is written. -/
structure Env where
  yubikeyHexDecode : List Char → (n : ℕ) → Vector UInt8 n
  encoders : Encoders
  ykpersVersionString : String
  buf : Vector Char 64

/-- A backend that tells the vendor and the product of the key it has opened. -/
structure UsbIds (σ : Type) extends Usb σ where
  ykusbGetVidPid : σ → Except (Option YkErr) (Int32 × Int32) × σ

/-! ## `parse_args` -/

/-- The variables of `main` that `parse_args` writes. -/
structure Vars where
  serialDec : Bool
  serialModhex : Bool
  serialHex : Bool
  version : Bool
  touchLevel : Bool
  pgmSeq : Bool
  slot1 : Bool
  slot2 : Bool
  vid : Bool
  pid : Bool
  capa : Bool
  quiet : Bool
  keyIndex : ℤ

def Vars.start : Vars where
  serialDec := false
  serialModhex := false
  serialHex := false
  version := false
  touchLevel := false
  pgmSeq := false
  slot1 := false
  slot2 := false
  vid := false
  pid := false
  capa := false
  quiet := false
  keyIndex := 0

/-- Whether there is something to be shown. -/
def Vars.any (v : Vars) : Bool :=
  v.serialDec || v.serialModhex || v.serialHex || v.version || v.touchLevel || v.pgmSeq ||
    v.slot1 || v.slot2 || v.vid || v.pid || v.capa

section Parse

variable (E : Env)

/-- One turn of the switch; an error is a return of 0 with what was written before it. -/
def parseOption (v : Vars) : Getopt.Scanned → Except (List Message) Vars
  | .flag 'a' => .ok { v with
      serialDec := true
      serialModhex := true
      serialHex := true
      version := true
      touchLevel := true
      pgmSeq := true
      slot1 := true
      slot2 := true
      vid := true
      pid := true }
  | .flag 's' => .ok { v with serialDec := true }
  | .flag 'm' => .ok { v with serialModhex := true }
  | .arg 'n' optarg => .ok { v with keyIndex := atoi optarg }
  | .flag 'H' => .ok { v with serialHex := true }
  | .flag 'v' => .ok { v with version := true }
  | .flag 't' => .ok { v with touchLevel := true }
  | .flag 'p' => .ok { v with pgmSeq := true }
  | .flag 'q' => .ok { v with quiet := true }
  | .flag '1' => .ok { v with slot1 := true }
  | .flag '2' => .ok { v with slot2 := true }
  | .flag 'i' => .ok { v with vid := true }
  | .flag 'I' => .ok { v with pid := true }
  | .flag 'c' => .ok { v with capa := true }
  | .flag 'V' => .error [.text (E.ykpersVersionString ++ "\n")]
  | _ => .error [.usage]

/-- The options that are scanned, up to the one that ends it. -/
def options (argv : List (List Char)) : List Getopt.Scanned :=
  (Getopt.scan optstring (Getopt.start argv)).1

def parseArgs (argv : List (List Char)) : Except (List Message) Vars := do
  let v ← (options argv).foldlM (parseOption E) Vars.start
  if v.any then pure v else .error [.text "You must give at least one option.\n", .usage]

end Parse

/-! ## What is printed -/

section Print

variable {σ : Type} (E : Env) (v : Vars)

/-- The line of a value, without its name where the output is `quiet`. -/
def printLine (quiet : Bool) (name : String) (text : List Char) : Proc (State σ) Unit := do
  onlyIf (!quiet) (Ykchalresp.printf name)
  Ykchalresp.printf (String.ofList text ++ "\n")

/-- `%d` of an `unsigned int`, whose bits are taken as those of an `int`. -/
def serialText (serial : UInt32) : List Char := Decimal.ofInt serial.toInt32.toInt

/-- The memory at `ptr`: the digits stand in `buf` from its second character on. -/
def serialPtr (serial : UInt32) : List Char :=
  let digits := Nat.toDigits 16 serial.toNat
  let buf := CString.snprintf E.buf.toList 1 63 digits
  if digits.length % 2 = 1 then buf.set 0 '0' else buf.drop 1

def serialModhexText (ptr : List Char) : List Char :=
  let hexSerial := (E.yubikeyHexDecode ptr ptr.length).toList
  E.encoders.yubikeyModhexEncode (hexSerial.take (ptr.length / 2))

def printSerial (serial : UInt32) : Proc (State σ) Unit := do
  onlyIf v.serialDec (printLine v.quiet "serial: " (serialText serial))
  onlyIf (v.serialModhex || v.serialHex) (do
    match CString.read (serialPtr E serial) with
    | none => fault
    | some ptr => do
      onlyIf v.serialHex (printLine v.quiet "serial_hex: " ptr)
      onlyIf v.serialModhex (printLine v.quiet "serial_modhex: " (serialModhexText E ptr)))

/-- Whether the bits of `mask` are set, as an `int`. -/
def isSet (touchLevel mask : UInt16) : ℤ := if touchLevel &&& mask = mask then 1 else 0

def versionText (st : YkStatus) : List Char :=
  Decimal.ofInt st.versionMajor.toNat ++ '.' :: Decimal.ofInt st.versionMinor.toNat
    ++ '.' :: Decimal.ofInt st.versionBuild.toNat

def printStatus (st : YkStatus) : Proc (State σ) Unit := do
  onlyIf v.version (printLine v.quiet "version: " (versionText st))
  onlyIf v.touchLevel (printLine v.quiet "touch_level: " (Decimal.ofInt st.touchLevel.toNat))
  onlyIf v.pgmSeq (printLine v.quiet "programming_sequence: " (Decimal.ofInt st.pgmSeq.toNat))
  onlyIf v.slot1
    (printLine v.quiet "slot1_status: " (Decimal.ofInt (isSet st.touchLevel config1Valid)))
  onlyIf v.slot2
    (printLine v.quiet "slot2_status: " (Decimal.ofInt (isSet st.touchLevel config2Valid)))

def printIds (vendorId productId : Int32) : Proc (State σ) Unit := do
  onlyIf v.vid (printLine v.quiet "vendor_id: " (Nat.toDigits 16 vendorId.toUInt32.toNat))
  onlyIf v.pid (printLine v.quiet "product_id: " (Nat.toDigits 16 productId.toUInt32.toNat))

/-- The loop over the bytes, each by `%02x`. -/
def printBytes : List UInt8 → Proc (State σ) Unit
  | [] => pure ⟨⟩
  | b :: bs => do
    Ykchalresp.printf (String.ofList (List.leftpad 2 '0' (Nat.toDigits 16 b.toNat)))
    printBytes bs

def printCapabilities (bytes : List UInt8) : Proc (State σ) Unit := do
  onlyIf (!v.quiet) (Ykchalresp.printf "capabilities: ")
  printBytes bytes
  Ykchalresp.printf "\n"

end Print

/-! ## `main` -/

section Main

variable {σ : Type} (U : UsbIds σ) (E : Env)

def ykGetKeyVidPid : Yk σ (Int32 × Int32) := fun w =>
  match U.ykusbGetVidPid w.dev with
  | (.ok ids, d) => (.ok ids, { w with dev := d })
  | (.error e, d) => (.fail, { w with dev := d, ykErrno := e <|> w.ykErrno })

def showSerial (v : Vars) : Proc (State σ) Unit :=
  onlyIf (v.serialDec || v.serialModhex || v.serialHex) (do
    let serial ← Ykchalresp.onKey (ykGetSerial U.toHost 1 0)
    printSerial E v serial)

def showStatus (v : Vars) : Proc (State σ) Unit :=
  onlyIf (v.version || v.touchLevel || v.pgmSeq || v.slot1 || v.slot2) (do
    let st ← Ykchalresp.onKey (ykGetStatus U.toHost)
    printStatus v st)

def showIds (v : Vars) : Proc (State σ) Unit :=
  onlyIf (v.vid || v.pid) (do
    let (vendorId, productId) ← Ykchalresp.onKey (ykGetKeyVidPid U)
    printIds v vendorId productId)

/-- Nothing is read of the array before it is written. -/
def showCapabilities (v : Vars) : Proc (State σ) Unit :=
  onlyIf v.capa (do
    let (buf, len) ← Ykchalresp.onKey (ykGetCapabilities U.toHost 1 0 (List.replicate 0xff 0) 0xff)
    printCapabilities v (buf.take len))

/-- `yk_init` and `yk_open_key`. -/
def openKey (keyIndex : ℤ) : Yk σ Unit := do
  busCall U.ykusbStart
  ykOpenKey U.toUsb keyIndex

/-- Up to the label `err`. -/
def session (v : Vars) : Proc (State σ) Unit := do
  Ykchalresp.onKey (openKey U v.keyIndex)
  modify fun s => { s with keyOpen := true }
  showSerial U E v
  showStatus U v
  showIds U v
  showCapabilities U v

def ykinfo (argv : List (List Char)) : Proc (State σ) ℕ := do
  match parseArgs E argv with
  | .error messages => do
    modify fun s => { s with stderr := s.stderr ++ messages }
    pure 0
  | .ok v => do
    let r ← attempt (session U E v)
    Ykchalresp.leave U.toUsb r.isNone

end Main

end Ykinfo

end YkPers
