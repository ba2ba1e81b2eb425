import YkPers.Ykpers
import YkPers.Lib.Buffer
import YkPers.Lib.Getopt
import YkPers.Lib.Scanf

/-!
# The command line, `ykpers-args.c`

`argsToConfig` runs on the variables of `args_to_config`, what it writes through its arguments,
the console and the position of `getopt`; returning 0 is `fail`. `fuel` bounds the turns of the
option loop and the calls of `fread`. A string is the characters before its NUL.
-/

namespace YkPers

open Proc (get modify fail diverge)

/-- What `args_to_config` only reads: arguments, libyubikey and the random devices. A decoder
stores as many bytes as its last argument says; `fopen` gives what `fread` delivers, call after
call. -/
structure ArgsEnv where
  st : YkStatus
  oathidLen : ℕ
  ndefLen : ℕ
  yubikeyHexP : List Char → Bool
  yubikeyModhexP : List Char → Bool
  yubikeyHexDecode : List Char → (n : ℕ) → Vector UInt8 n
  yubikeyModhexDecode : List Char → (n : ℕ) → Vector UInt8 n
  fopen : String → Option (ℕ → List UInt8)

/-! ## `hex_modhex_decode` -/

/-- The result, `*resultlen` where it is set, and the bytes stored at `result`. -/
structure Decoded where
  rc : Int
  resultlen : Option ℕ
  stored : List UInt8

/-- The string behind an `m:` or `h:`, and whether it is modhex. -/
def stripPrefix (str : List Char) (primarilyModhex : Bool) : List Char × Bool :=
  if str.take 2 = "m:".toList ∨ str.take 2 = "M:".toList then (str.drop 2, true)
  else if str.take 2 = "h:".toList ∨ str.take 2 = "H:".toList then (str.drop 2, false)
  else (str, primarilyModhex)

def hexModhexDecode (E : ArgsEnv) (str : List Char) (minsize maxsize : ℕ)
    (primarilyModhex : Bool) : Decoded :=
  let p := stripPrefix str primarilyModhex
  let strl := p.1.length
  if strl % 2 ≠ 0 ∨ strl < minsize ∨ strl > maxsize then ⟨-1, none, []⟩
  else if p.2 then
    if E.yubikeyModhexP p.1 then
      ⟨1, some (strl / 2), (E.yubikeyModhexDecode p.1 strl).toList⟩
    else ⟨0, some (strl / 2), []⟩
  else
    if E.yubikeyHexP p.1 then ⟨1, some (strl / 2), (E.yubikeyHexDecode p.1 strl).toList⟩
    else ⟨0, some (strl / 2), []⟩

/-! ## The state -/

inductive YkpFormat where
  | legacy | ycfg
  deriving DecidableEq

inductive ErrOutput where
  | text (s : String)
  | usage
  | perror (s : String)

/-- `decodes` lists, for each call of a decoder, the size of its buffer and the size it is
passed. -/
structure ArgsState where
  getopt : Getopt
  stdin : List Char
  stderr : List ErrOutput
  decodes : List (ℕ × ℕ)
  ykp : YkpState
  oathid : List Char
  infname : Option (List Char)
  outfname : Option (List Char)
  dataFormat : YkpFormat
  autocommit : Bool
  verbose : Bool
  dryRun : Bool
  accessCode : Option (List Char)
  newAccessCode : Option (List Char)
  ndefType : Option Char
  ndef : List Char
  usbMode : UInt8
  zap : Bool
  scanBin : List UInt8
  crTimeout : UInt8
  autoejectTimeout : UInt16
  numModesSeen : ℕ
  deviceInfo : List UInt8
  deviceInfoLen : ℕ
  exitCode : ℕ
  keylocation : ℕ
  aeshash : Option (List Char)
  slotChosen : Bool
  modeChosen : Bool
  optionSeen : Bool
  swapSeen : Bool
  updateSeen : Bool
  ndefSeen : Bool
  usbModeSeen : Bool
  scanMapSeen : Bool
  deviceInfoSeen : Bool

/-- The caller's variables as `main` declares them, with a fresh configuration; it leaves the two
buffers uninitialised. -/
def ArgsState.fresh (argv : List (List Char)) (stdin : List Char)
    (scanCodes deviceInfo : List UInt8) : ArgsState where
  getopt := Getopt.start argv
  stdin := stdin
  stderr := []
  decodes := []
  ykp := ⟨ykpAlloc, none⟩
  oathid := []
  infname := none
  outfname := none
  dataFormat := .legacy
  autocommit := false
  verbose := false
  dryRun := false
  accessCode := none
  newAccessCode := none
  ndefType := none
  ndef := []
  usbMode := 0
  zap := false
  scanBin := scanCodes
  crTimeout := 0
  autoejectTimeout := 0
  numModesSeen := 0
  deviceInfo := deviceInfo
  deviceInfoLen := 0
  exitCode := 0
  keylocation := 0
  aeshash := none
  slotChosen := false
  modeChosen := false
  optionSeen := false
  swapSeen := false
  updateSeen := false
  ndefSeen := false
  usbModeSeen := false
  scanMapSeen := false
  deviceInfoSeen := false

def declareLocals : Proc ArgsState Unit :=
  modify fun s => { s with
    keylocation := 0, aeshash := none, slotChosen := false, modeChosen := false,
    optionSeen := false, swapSeen := false, updateSeen := false, ndefSeen := false,
    usbModeSeen := false, scanMapSeen := false, deviceInfoSeen := false }

/-! ## Steps that the cases share -/

def fprintf (msg : String) : Proc ArgsState Unit :=
  modify fun s => { s with stderr := s.stderr ++ [.text msg] }

def fputsUsage : Proc ArgsState Unit :=
  modify fun s => { s with stderr := s.stderr ++ [.usage] }

/-- `*exit_code = 1; return 0`. -/
def exitOne : Proc ArgsState Unit := do
  modify fun s => { s with exitCode := 1 }
  fail

def reject (msg : String) : Proc ArgsState Unit := do
  fprintf msg
  exitOne

def rejectIf (c : Bool) (msg : String) : Proc ArgsState Unit :=
  if c then reject msg else pure ⟨⟩

/-- A function of `ykpers.c` whose failure is returned. -/
def onYkp (x : Proc YkpState Unit) : Proc ArgsState Unit :=
  Proc.zoom ArgsState.ykp (fun y s => { s with ykp := y }) x

/-- One whose result is not looked at. -/
def discarding (x : Proc YkpState Unit) : Proc ArgsState Unit :=
  Proc.zoom ArgsState.ykp (fun y s => { s with ykp := y })
    (do let _ ← Proc.attempt x; pure ⟨⟩)

/-- One whose failure also sets the exit code. -/
def orExitOne (x : Proc YkpState Unit) : Proc ArgsState Unit := do
  match ← Proc.zoom ArgsState.ykp (fun y s => { s with ykp := y }) (Proc.attempt x) with
  | some _ => pure ⟨⟩
  | none => exitOne

/-- The line that `fgets` reads into `size` characters, and what is left. -/
def fgets (size : ℕ) (stdin : List Char) : Option (List Char × List Char) :=
  if stdin = [] then none
  else
    let line := stdin.takeWhile (· ≠ '\n') ++ (stdin.dropWhile (· ≠ '\n')).take 1
    some (line.take (size - 1), stdin.drop (min line.length (size - 1)))

/-- The result and the string it allocates. -/
def promptForData (question : String) : Proc ArgsState (ℕ × List Char) := do
  fprintf question
  let s ← get
  match fgets 256 s.stdin with
  | none => do
    fprintf "Error reading from stdin\n"
    modify fun s => { s with stderr := s.stderr ++ [.perror "fgets"] }
    pure (1, [])
  | some (line, rest) => do
    modify fun s => { s with stdin := rest }
    let line := line.takeWhile (· ≠ '\x00')
    pure (0, if line.getLast? = some '\n' then line.dropLast else line)

/-- A decoder is passed a buffer of `capacity` bytes. -/
def noteDecode (capacity : ℕ) (d : Decoded) : Proc ArgsState Unit :=
  if d.rc = 1 then
    modify fun s => { s with decodes := s.decodes ++ [(capacity, d.stored.length)] }
  else pure ⟨⟩

/-- The bytes that fit into a buffer, stored at its front. -/
def storeFront (buf xs : List UInt8) : List UInt8 := (Buffer.store buf 0 xs).take buf.length

/-- `strncpy` into `len` characters, and a NUL at the last of them. -/
def copyString (len : ℕ) (dst src : List Char) : List Char :=
  if len = 0 then dst else src.take (len - 1)

/-! ## The cases of the option loop -/

def caseU : Proc ArgsState Unit := do
  let s ← get
  rejectIf s.slotChosen "You must use update before slot (-1 / -2).\n"
  rejectIf s.swapSeen "Update (-u) and swap (-x) can't be combined.\n"
  rejectIf s.ndefSeen "Update (-u) can not be combined with ndef (-n).\n"
  modify fun s => { s with updateSeen := true }

/-- The command of `-1` or, where `second`, of `-2`, and the flags set with it. -/
def slotCommand (second : Bool) : Proc ArgsState UInt8 := do
  let s ← get
  if s.updateSeen then do
    discarding (ykpSetExtflagAllowUpdate true)
    pure (if second then slotUpdate2 else slotUpdate1)
  else if second then do
    discarding (ykpSetCfgflagStaticTicket true)
    discarding (ykpSetCfgflagStrongPw1 true)
    discarding (ykpSetCfgflagStrongPw2 true)
    discarding (ykpSetCfgflagManUpdate true)
    pure slotConfig2
  else pure slotConfig

def caseSlot (second : Bool) : Proc ArgsState Unit := do
  let s ← get
  rejectIf s.slotChosen "You may only choose slot (-1 / -2) once.\n"
  rejectIf s.optionSeen "You must choose slot before any options (-o).\n"
  rejectIf s.swapSeen "You can not combine slot swap (-x) with configuring a slot.\n"
  -- nothing is asked about `-n`, `-m`, `-S` and `-D`, whose command is overwritten here
  discarding (ykpSetTktflagAppendCr true)
  let command ← slotCommand second
  onYkp (ykpConfigureCommand command)
  modify fun s => { s with slotChosen := true }

def caseX : Proc ArgsState Unit := do
  let s ← get
  rejectIf (s.slotChosen || s.optionSeen || s.updateSeen || s.ndefSeen || s.zap ||
      s.usbModeSeen || s.scanMapSeen || s.deviceInfoSeen)
    "Slot swap (-x) can not be used with other options.\n"
  onYkp (ykpConfigureCommand slotSwap)
  modify fun s => { s with swapSeen := true }

def caseZ : Proc ArgsState Unit := do
  let s ← get
  rejectIf (s.swapSeen || s.updateSeen || s.ndefSeen || s.usbModeSeen || s.scanMapSeen ||
      s.deviceInfoSeen)
    "Zap (-z) can only be used with a slot (-1 / -2).\n"
  modify fun s => { s with zap := true }

def caseF (optarg : List Char) : Proc ArgsState Unit :=
  if optarg = "ycfg".toList then modify fun s => { s with dataFormat := .ycfg }
  else if optarg = "legacy".toList then modify fun s => { s with dataFormat := .legacy }
  else reject "The only valid formats to -f is ycfg and legacy.\n"

/-- `optarg[0] == '-'`: the argument is the next option. -/
def isOption (optarg : List Char) : Bool := optarg.head? = some '-'

def stepBack : Proc ArgsState Unit :=
  modify fun s => { s with getopt := s.getopt.stepBack }

def caseA (optarg : List Char) : Proc ArgsState Unit :=
  if isOption optarg then do
    modify fun s => { s with keylocation := 2 }
    stepBack
  else modify fun s => { s with aeshash := some optarg, keylocation := 1 }

def promptAccessCode : Proc ArgsState Unit := do
  let p ← promptForData " Access code, 6 bytes (12 characters hex) : "
  modify fun s => { s with accessCode := some p.2 }
  if p.1 ≠ 0 then exitOne else pure ⟨⟩

def caseC (optarg : List Char) : Proc ArgsState Unit :=
  if isOption optarg then do
    stepBack
    promptAccessCode
  else modify fun s => { s with accessCode := some optarg }

def ndefCommand (command : UInt8) : UInt8 :=
  if command = slotConfig then slotNdef
  else if command = slotConfig2 then slotNdef2
  else slotNdef

def caseN (E : ArgsEnv) (optarg : List Char) : Proc ArgsState Unit := do
  modify fun s => { s with ndefType := some (s.ndefType.getD 'U') }
  let s ← get
  rejectIf (s.swapSeen || s.updateSeen || s.optionSeen || s.zap || s.usbModeSeen ||
      s.scanMapSeen || s.deviceInfoSeen)
    "Ndef (-n/-t) can only be used with a slot (-1/-2).\n"
  onYkp (ykpConfigureCommand (ndefCommand s.ykp.cfg.command))
  modify fun s => { s with ndef := copyString E.ndefLen s.ndef optarg }
  modify fun s => { s with ndefSeen := true }

def caseT (E : ArgsEnv) (optarg : List Char) : Proc ArgsState Unit := do
  modify fun s => { s with ndefType := some 'T' }
  caseN E optarg

/-- `sscanf(optarg, "%hhx:%hhd:%hd", ..)`: a value keeps its low-order bits. -/
def scanUsbMode (optarg : List Char) : Option (UInt8 × Option (UInt8 × Option UInt16)) :=
  (Scanf.int 16 optarg).map fun m =>
    (UInt8.ofInt m.1, ((Scanf.colon m.2).bind (Scanf.int 10)).map fun c =>
      (UInt8.ofInt c.1, ((Scanf.colon c.2).bind (Scanf.int 10)).map fun a => UInt16.ofInt a.1))

def storeUsbMode : UInt8 × Option (UInt8 × Option UInt16) → ArgsState → ArgsState
  | (mode, none), s => { s with usbMode := mode, numModesSeen := 1 }
  | (mode, some (crtime, none)), s =>
    { s with usbMode := mode, crTimeout := crtime, numModesSeen := 2 }
  | (mode, some (crtime, some autotime)), s =>
    { s with usbMode := mode, crTimeout := crtime, autoejectTimeout := autotime,
             numModesSeen := 3 }

def caseM (optarg : List Char) : Proc ArgsState Unit := do
  let s ← get
  rejectIf (s.slotChosen || s.swapSeen || s.updateSeen || s.optionSeen || s.ndefSeen || s.zap ||
      s.scanMapSeen || s.deviceInfoSeen)
    "USB mode (-m) can not be combined with other options.\n"
  match scanUsbMode optarg with
  | none => reject "Invalid USB operation mode.\n"
  | some v => do
    modify fun s => { storeUsbMode v s with usbModeSeen := true }
    onYkp (ykpConfigureCommand slotDeviceConfig)

def caseS (E : ArgsEnv) (optarg : List Char) : Proc ArgsState Unit := do
  let s ← get
  rejectIf (s.slotChosen || s.swapSeen || s.updateSeen || s.optionSeen || s.ndefSeen || s.zap ||
      s.usbModeSeen || s.deviceInfoSeen)
    "Scanmap (-S) can not be combined with other options.\n"
  let d := hexModhexDecode E optarg (scanMap.length * 2) (scanMap.length * 2) false
  noteDecode s.scanBin.length d
  modify fun s => { s with scanBin := storeFront s.scanBin d.stored }
  rejectIf (d.rc ≤ 0) ("Invalid scanmap string " ++ String.ofList optarg ++ "\n")
  modify fun s => { s with scanMapSeen := true }
  onYkp (ykpConfigureCommand slotScanMap)

def caseMissingS : Proc ArgsState Unit := do
  let s ← get
  -- the second copy of the check: `deviceInfoSeen` is missing
  rejectIf (s.slotChosen || s.swapSeen || s.updateSeen || s.optionSeen || s.ndefSeen || s.zap ||
      s.usbModeSeen)
    "Scanmap (-S) can not be combined with other options.\n"
  modify fun s => { s with scanBin := storeFront s.scanBin (List.replicate scanMap.length 0) }
  modify fun s => { s with scanMapSeen := true }
  onYkp (ykpConfigureCommand slotScanMap)

def caseD (E : ArgsEnv) (optarg : List Char) : Proc ArgsState Unit := do
  let s ← get
  rejectIf (s.slotChosen || s.swapSeen || s.updateSeen || s.optionSeen || s.ndefSeen || s.zap ||
      s.usbModeSeen || s.scanMapSeen)
    "Deviceinfo (-D) can not be combined with other options.\n"
  let d := hexModhexDecode E optarg 2 128 false
  noteDecode s.deviceInfo.length d
  modify fun s => { s with
    deviceInfo := storeFront s.deviceInfo d.stored
    deviceInfoLen := d.resultlen.getD s.deviceInfoLen }
  rejectIf (d.rc ≤ 0)
    ("Failed decoding deviceinfo string: '" ++ String.ofList optarg ++ "'\n")
  onYkp (ykpConfigureCommand slotYk4SetDeviceInfo)
  modify fun s => { s with deviceInfoSeen := true }

/-! ## `-o` -/

/-- Before the `switch`: the options that choose a mode come first, and once. -/
def modeOption (optarg : List Char) : Proc ArgsState Unit :=
  if optarg = "oath-hotp".toList ∨ optarg = "chal-resp".toList then do
    let s ← get
    rejectIf s.modeChosen
      "You may only choose mode (-ooath-hotp / -ochal-resp) once.\n"
    rejectIf s.optionSeen
      "Mode choosing flags (oath-hotp / chal-resp) must be set prior to any other options (-o).\n"
    onYkp ykpClearConfig
    modify fun s => { s with modeChosen := true }
    modify fun s => { s with optionSeen := true }
  else modify fun s => { s with optionSeen := true }

def setFixed (E : ArgsEnv) (opt : List Char) : Proc ArgsState Unit := do
  let d := hexModhexDecode E opt 0 32 true
  noteDecode 256 d
  if d.rc ≤ 0 then fail
  else discarding (ykpSetFixed (d.stored.take (d.resultlen.getD 0)))

def optionFixed (E : ArgsEnv) (fixed : List Char) : Proc ArgsState Unit := do
  match ← Proc.attempt (setFixed E fixed) with
  | some _ => pure ⟨⟩
  | none => reject ("Invalid fixed string: " ++ String.ofList fixed ++ "\n")

/-- The value of `-ouid`, asked for where none is given. -/
def uidValue (optarg : List Char) : Proc ArgsState (List Char) :=
  if optarg.take 4 = "uid=".toList then pure (optarg.drop 4)
  else do
    let p ← promptForData " Private ID, 6 bytes (12 characters hex) : "
    if p.1 ≠ 0 then do
      exitOne
      pure []
    else pure p.2

def optionUid (E : ArgsEnv) (optarg : List Char) : Proc ArgsState Unit := do
  let uid ← uidValue optarg
  let d := hexModhexDecode E uid 12 12 false
  noteDecode 256 d
  rejectIf (d.rc ≤ 0) ("Invalid uid string: " ++ String.ofList uid ++ "\n")
  let s ← get
  rejectIf (ykpGetTktflagOathHotp s.ykp.cfg || ykpGetTktflagChalResp s.ykp.cfg)
    "Option uid= not valid with -ooath-hotp or -ochal-resp.\n"
  discarding (ykpSetUid (d.stored.take (d.resultlen.getD 0)))

def promptNewAccessCode : Proc ArgsState Unit := do
  let p ← promptForData " New access code, 6 bytes (12 characters hex) : "
  modify fun s => { s with newAccessCode := some p.2 }
  if p.1 ≠ 0 then exitOne else pure ⟨⟩

/-- An option of a table sets its flag, or clears it behind a `-`. -/
def findFlag (table : List (String × (Bool → Proc YkpState Unit))) (optarg : List Char) :
    Option (Proc YkpState Unit) :=
  table.findSome? fun p =>
    if optarg = p.1.toList then some (p.2 true)
    else if optarg = '-' :: p.1.toList then some (p.2 false)
    else none

def tktflagOptions : List (String × (Bool → Proc YkpState Unit)) :=
  [("tab-first", ykpSetTktflagTabFirst), ("append-tab1", ykpSetTktflagAppendTab1),
   ("append-tab2", ykpSetTktflagAppendTab2), ("append-delay1", ykpSetTktflagAppendDelay1),
   ("append-delay2", ykpSetTktflagAppendDelay2), ("append-cr", ykpSetTktflagAppendCr),
   ("protect-cfg2", ykpSetTktflagProtectCfg2), ("oath-hotp", ykpSetTktflagOathHotp),
   ("chal-resp", ykpSetTktflagChalResp)]

def cfgflagOptions : List (String × (Bool → Proc YkpState Unit)) :=
  [("send-ref", ykpSetCfgflagSendRef), ("ticket-first", ykpSetCfgflagTicketFirst),
   ("pacing-10ms", ykpSetCfgflagPacing10ms), ("pacing-20ms", ykpSetCfgflagPacing20ms),
   ("allow-hidtrig", ykpSetCfgflagAllowHidtrig), ("static-ticket", ykpSetCfgflagStaticTicket),
   ("short-ticket", ykpSetCfgflagShortTicket), ("strong-pw1", ykpSetCfgflagStrongPw1),
   ("strong-pw2", ykpSetCfgflagStrongPw2), ("man-update", ykpSetCfgflagManUpdate),
   ("oath-hotp8", ykpSetCfgflagOathHotp8), ("oath-fixed-modhex1", ykpSetCfgflagOathFixedModhex1),
   ("oath-fixed-modhex2", ykpSetCfgflagOathFixedModhex2),
   ("oath-fixed-modhex", ykpSetCfgflagOathFixedModhex), ("chal-yubico", ykpSetCfgflagChalYubico),
   ("chal-hmac", ykpSetCfgflagChalHmac), ("hmac-lt64", ykpSetCfgflagHmacLt64),
   ("chal-btn-trig", ykpSetCfgflagChalBtnTrig)]

def extflagOptions : List (String × (Bool → Proc YkpState Unit)) :=
  [("serial-btn-visible", ykpSetExtflagSerialBtnVisible),
   ("serial-usb-visible", ykpSetExtflagSerialUsbVisible),
   ("serial-api-visible", ykpSetExtflagSerialApiVisible),
   ("use-numeric-keypad", ykpSetExtflagUseNumericKeypad), ("fast-trig", ykpSetExtflagFastTrig),
   ("allow-update", ykpSetExtflagAllowUpdate), ("dormant", ykpSetExtflagDormant),
   ("led-inv", ykpSetExtflagLedInv)]

/-- `sscanf(.., "%lu", &imf)`, which a numeral that is too long leaves at the largest value. -/
def scanUnsignedLong (s : List Char) : Option ℕ :=
  (Scanf.int 10 s).map fun p =>
    if p.1.natAbs < 2 ^ 64 then (p.1 % 2 ^ 64).toNat else 2 ^ 64 - 1

def optionOathImf (value : List Char) : Proc ArgsState Unit := do
  let s ← get
  rejectIf (!ykpGetTktflagOathHotp s.ykp.cfg)
    "Option oath-imf= only valid with -ooath-hotp or -ooath-hotp8.\n"
  match scanUnsignedLong value with
  | none => reject ("Invalid value " ++ String.ofList value ++ " for oath-imf=.\n")
  | some imf => do
    rejectIf (imf > 65535 * 16 || imf % 16 ≠ 0)
      ("Invalid value " ++ String.ofList value ++ " for oath-imf=.\n")
    orExitOne (ykpSetOathImf imf)

def rejectUnknown (optarg : List Char) : Proc ArgsState Unit := do
  fprintf ("Unknown option '" ++ String.ofList optarg ++ "'\n")
  fputsUsage
  exitOne

def caseO (E : ArgsEnv) (optarg : List Char) : Proc ArgsState Unit := do
  let s ← get
  rejectIf s.zap "No options can be given with zap (-z).\n"
  if optarg.take 6 = "fixed=".toList then optionFixed E (optarg.drop 6)
  else if optarg.take 3 = "uid".toList then optionUid E optarg
  else if optarg.take 7 = "access=".toList then
    modify fun s => { s with newAccessCode := some (optarg.drop 7) }
  else if optarg.take 6 = "access".toList then promptNewAccessCode
  else
    match findFlag (tktflagOptions ++ cfgflagOptions) optarg with
    | some set => orExitOne set
    | none =>
      if optarg.take 9 = "oath-imf=".toList then optionOathImf (optarg.drop 9)
      else if optarg.take 8 = "oath-id=".toList ∨ optarg = "oath-id".toList then
        modify fun s => { s with oathid := copyString E.oathidLen s.oathid optarg }
      else
        match findFlag extflagOptions optarg with
        | some set => orExitOne set
        | none => rejectUnknown optarg

/-! ## The option loop -/

def optstring : List Char := ":u12xza:c:n:t:hi:o:s:f:dvym:S:VN:D:".toList

def nextOption : Proc ArgsState (Option Getopt.Scanned) := fun s =>
  (.ok (s.getopt.getopt optstring).1, { s with getopt := (s.getopt.getopt optstring).2 })

/-- `case 'h'` and `default`. -/
def caseHelp : Proc ArgsState Unit := do
  fputsUsage
  modify fun s => { s with exitCode := 0 }
  fail

def handle (E : ArgsEnv) : Getopt.Scanned → Proc ArgsState Unit
  | .flag 'u' => caseU
  | .flag '1' => caseSlot false
  | .flag '2' => caseSlot true
  | .flag 'x' => caseX
  | .flag 'z' => caseZ
  | .arg 'i' optarg => modify fun s => { s with infname := some optarg }
  | .arg 's' optarg => modify fun s => { s with outfname := some optarg }
  | .arg 'f' optarg => caseF optarg
  | .arg 'a' optarg => caseA optarg
  | .arg 'c' optarg => caseC optarg
  | .arg 't' optarg => caseT E optarg
  | .arg 'n' optarg => caseN E optarg
  | .arg 'm' optarg => caseM optarg
  | .arg 'S' optarg => caseS E optarg
  | .arg 'D' optarg => caseD E optarg
  | .arg 'o' optarg => do
    modeOption optarg
    caseO E optarg
  | .flag 'd' => modify fun s => { s with dryRun := true }
  | .flag 'v' => modify fun s => { s with verbose := true }
  | .flag 'y' => modify fun s => { s with autocommit := true }
  | .flag 'V' => pure ⟨⟩
  | .arg 'N' _ => pure ⟨⟩
  | .missing 'S' => caseMissingS
  | .missing 'a' => modify fun s => { s with keylocation := 2 }
  | .missing 'c' => promptAccessCode
  | _ => caseHelp

def optionLoop (E : ArgsEnv) : ℕ → Proc ArgsState Unit
  | 0 => diverge
  | fuel + 1 => do
    match ← nextOption with
    | none => pure ⟨⟩
    | some o => do
      handle E o
      optionLoop E fuel

/-! ## Behind the loop -/

def checkAction : Proc ArgsState Unit := do
  let s ← get
  if !s.slotChosen && !s.ndefSeen && !s.swapSeen && !s.usbModeSeen && !s.scanMapSeen &&
      !s.deviceInfoSeen then do
    if s.getopt.argv.length = 1 then fputsUsage
    else fprintf "A slot must be chosen with -1 or -2.\n"
    exitOne
  else pure ⟨⟩

def checkUpdate : Proc ArgsState Unit := do
  let s ← get
  let c := s.ykp.cfg.ykcoreConfig
  if s.updateSeen then do
    rejectIf (c.tktFlags &&& tktflagUpdateMask ≠ c.tktFlags)
      "Unallowed ticket flags with update.\n"
    rejectIf (c.cfgFlags &&& cfgflagUpdateMask ≠ c.cfgFlags)
      "Unallowed cfg flags with update.\n"
    rejectIf (c.extFlags &&& extflagUpdateMask ≠ c.extFlags)
      "Unallowed ext flags with update.\n"
  else pure ⟨⟩

def promptKey (keyBytes : ℕ) : Proc ArgsState Unit := do
  let s ← get
  if s.keylocation = 2 then do
    let p ← promptForData (if keyBytes = 20 then " HMAC key, 20 bytes (40 characters hex) : "
      else " AES key, 16 bytes (32 characters hex) : ")
    if p.1 ≠ 0 then exitOne
    else modify fun s => { s with aeshash := some p.2, keylocation := 1 }
  else pure ⟨⟩

def readRandom (source : ℕ → List UInt8) (keyBytes : ℕ) :
    ℕ → ℕ → List UInt8 → Proc ArgsState (List UInt8)
  | 0, _, _ => diverge
  | fuel + 1, i, keybuf =>
    if keybuf.length < keyBytes then
      readRandom source keyBytes fuel (i + 1)
        (keybuf ++ (source i).take (keyBytes - keybuf.length))
    else pure keybuf

def randomPlaces : List String := ["/dev/srandom", "/dev/urandom", "/dev/random"]

def randomKey (E : ArgsEnv) (fuel keyBytes : ℕ) : Proc ArgsState (List UInt8) :=
  match randomPlaces.findSome? E.fopen with
  | some source => readRandom source keyBytes fuel 0 []
  | none => do
    modify fun s => { s with ykp.ykpErrno := some .ENORANDOM }
    exitOne
    pure []

def decodeKey (E : ArgsEnv) (keyBytes : ℕ) : Proc ArgsState (List UInt8) := do
  let s ← get
  let d := hexModhexDecode E (s.aeshash.getD []) (keyBytes * 2) (keyBytes * 2) false
  noteDecode 20 d
  rejectIf (d.rc ≤ 0) "Invalid key string\n"
  pure (d.stored.take (d.resultlen.getD 0))

def keySection (E : ArgsEnv) (fuel : ℕ) : Proc ArgsState Unit := do
  let s ← get
  if !s.zap && (s.ykp.cfg.command = slotConfig || s.ykp.cfg.command = slotConfig2) then do
    let keyBytes := ykpGetSupportedKeyLength s.ykp.cfg
    promptKey keyBytes
    let t ← get
    let keybuf ← if t.keylocation = 0 then randomKey E fuel keyBytes else decodeKey E keyBytes
    -- both return 0, so that the message for a bad key is never written
    onYkp (if keyBytes = 20 then ykpHmacKeyFromRaw keybuf else ykpAesKeyFromRaw keybuf)
  else pure ⟨⟩

def argsToConfig (E : ArgsEnv) (fuel : ℕ) : Proc ArgsState Unit := do
  declareLocals
  onYkp (ykpConfigureVersion E.st)
  optionLoop E fuel
  checkAction
  checkUpdate
  keySection E fuel

end YkPers
