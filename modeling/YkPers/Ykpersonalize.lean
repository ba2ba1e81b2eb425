import YkPers.Ndef
import YkPers.OathId
import YkPers.YkpersExport

/-!
# The program, `ykpersonalize.c`

`ykpersonalize` is `main`: it runs on the variables of the program, the console and the key, and
logs how the steps over its options end, the answers that it reads, the calls that program the key
and the errors that it reports. `fail` is `goto err` with `error` set. Messages of the operating
system and of libyubikey come from the environment.
-/

namespace YkPers

open Proc (get modify fail fault diverge attempt)

/-! ## The environment -/

/-- A host with the calls that find a key and let it go. -/
structure Usb (σ : Type) extends Host σ where
  ykusbStart : σ → Except (Option YkErr) Unit × σ
  ykusbStop : σ → Except (Option YkErr) Unit × σ
  ykusbOpenDevice : (vendorId : ℕ) → (index : ℤ) → σ → Except (Option YkErr) Unit × σ
  ykusbCloseDevice : σ → Except (Option YkErr) Unit × σ

/-- What `main` only reads: libraries, and files by their names. A file is the bytes that `fread`
delivers, or the message for `fopen`; a file that opens for writing says of a text whether `fwrite`
returns other than 0, and so does the standard output, by the name `-`. -/
structure MainEnv where
  args : ArgsEnv
  encoders : Encoders
  jsonC : JsonC
  ykpersVersionString : String
  readFile : List Char → Except String (List Char)
  writeFile : List Char → Except String (List Char → Bool)

/-- `args_to_config` gets the key's status, and the sizes of two buffers. -/
def MainEnv.argsEnv (M : MainEnv) (st : YkStatus) : ArgsEnv :=
  { M.args with st := st, oathidLen := 128, ndefLen := 128 }

/-! ## The log -/

/-- The steps over the options; an import is of the text that was read. -/
inductive OptionStep where
  | argsToConfig
  | setOathId
  | accessCode
  | newAccessCode
  | importConfig (text : List Char)
  deriving DecidableEq

/-- The calls that change what is on the key. -/
inductive Programming where
  | command (cfg : Option YkConfig) (command : UInt8) (accCode : Option (Vector UInt8 accCodeSize))
  | ndef (ndef : YkNdef) (confnum : ℤ)
  | deviceConfig (deviceConfig : YkDeviceConfig)
  | scanMap (scanCodes : List UInt8)
  | deviceInfo (deviceInfo : List UInt8) (len : UInt32)
  deriving DecidableEq

inductive Act where
  | step (step : OptionStep) (ok : Bool)
  | answer (line : List Char)
  | program (call : Programming)
  | report (ykpErrno : Option YkpErr) (ykErrno : Option YkErr)
  deriving DecidableEq

def Programming.run {σ : Type} (H : Host σ) : Programming → Yk σ Unit
  | .command cfg cmd accCode => do
    let _ ← ykWriteCommand H cfg cmd accCode
    pure ⟨⟩
  | .ndef record confnum => ykWriteNdef2 H record confnum
  | .deviceConfig d => ykWriteDeviceConfig H d
  | .scanMap scanCodes => ykWriteScanMap H scanCodes
  | .deviceInfo info len => ykWriteDeviceInfo H info len

/-! ## The state -/

structure MainState (σ : Type) where
  session : Session σ
  keyOpen : Bool
  data : List Char
  accessCode : List UInt8
  stdout : List String
  acts : List Act

/-- Nothing has been done; the source leaves its buffers uninitialised. -/
def MainState.start {σ : Type} (argv : List (List Char)) (stdin : List Char)
    (scanCodes deviceInfo accessCode : List UInt8) (data : List Char) (dev : σ) :
    MainState σ where
  session := ⟨.fresh argv stdin scanCodes deviceInfo, ⟨dev, none, []⟩⟩
  keyOpen := false
  data := data
  accessCode := accessCode
  stdout := []
  acts := []

section Steps

variable {σ α : Type}

def MainState.cfg (m : MainState σ) : YkpConfig := m.session.args.ykp.cfg

def onSession (x : Proc (Session σ) α) : Proc (MainState σ) α :=
  Proc.zoom MainState.session (fun s m => { m with session := s }) x

def onConfig (x : Proc YkpState α) : Proc (MainState σ) α :=
  onSession (onArgs (Proc.zoom ArgsState.ykp (fun y s => { s with ykp := y }) x))

def logAct (a : Act) : Proc (MainState σ) Unit :=
  modify fun m => { m with acts := m.acts ++ [a] }

def printf (text : String) : Proc (MainState σ) Unit :=
  modify fun m => { m with stdout := m.stdout ++ [text] }

def printIf (c : Bool) (text : String) : Proc (MainState σ) Unit :=
  if c then printf text else pure ⟨⟩

def eprintf (text : String) : Proc (MainState σ) Unit := onSession (onArgs (fprintf text))

def setExitCode (code : ℕ) : Proc (MainState σ) Unit :=
  onSession (onArgs (modify fun s => { s with exitCode := code }))

/-- `exit_code = 1; goto err`. -/
def errOne : Proc (MainState σ) α := do
  setExitCode 1
  fail

/-- A call of the backend that is no transfer. -/
def busCall (f : σ → Except (Option YkErr) Unit × σ) : Yk σ Unit := fun w =>
  match f w.dev with
  | (.ok _, d) => (.ok ⟨⟩, { w with dev := d })
  | (.error e, d) => (.fail, { w with dev := d, ykErrno := e <|> w.ykErrno })

/-- A step over the options, and how it ended. -/
def optionStep (step : OptionStep) (x : Proc (MainState σ) α) : Proc (MainState σ) (Option α) := do
  let r ← attempt x
  logAct (.step step r.isSome)
  pure r

end Steps

section Main

variable {σ : Type} (U : Usb σ) (M : MainEnv)

/-! ## The first look at the options -/

/-- Go on with the key of an index, or leave with an exit code. -/
inductive Prescan where
  | goOn (keyIndex : ℤ)
  | leave (exitCode : ℕ) (output : ErrOutput)

def atoi (s : List Char) : ℤ := ((Scanf.int 10 s).map Prod.fst).getD 0

def prescanOption (keyIndex : ℤ) : Getopt.Scanned → Prescan
  | .flag 'h' => .leave 0 .usage
  | .arg 'N' optarg => .goOn (atoi optarg)
  | .flag 'V' => .leave 0 (.text (M.ykpersVersionString ++ "\n"))
  | .missing 'S' => .goOn keyIndex
  | .missing 'a' => .goOn keyIndex
  | .missing 'c' => .goOn keyIndex
  | .missing optopt => .leave 1 (.text ("Option " ++ optopt.toString ++ " requires an argument.\n"))
  | _ => .goOn keyIndex

/-- `none` is out of fuel. -/
def prescan : ℕ → Getopt → ℤ → Option Prescan
  | 0, _, _ => none
  | fuel + 1, g, keyIndex =>
    match g.getopt optstring with
    | (none, _) => some (.goOn keyIndex)
    | (some o, g') =>
      match prescanOption M keyIndex o with
      | .goOn keyIndex => prescan fuel g' keyIndex
      | leave => some leave

/-! ## Opening the key -/

def yubicoVid : ℕ := 0x1050

def ykOpenKey (index : ℤ) : Yk σ Unit := do
  let found ← attempt (busCall (U.ykusbOpenDevice yubicoVid index))
  let found ←
    if found.isSome then pure found
    else do
      modify fun w => { w with ykErrno := none }
      -- a compatible device of another vendor
      attempt (busCall (U.ykusbOpenDevice 0x1d50 index))
  if found.isNone then fail
  else do
    let w ← get
    match ← attempt (ykGetStatus U.toHost) with
    | some _ => modify fun w' => { w' with ykErrno := w.ykErrno }
    | none => do
      let w ← get
      let _ ← attempt (busCall U.ykusbCloseDevice)
      modify fun w' => { w' with ykErrno := w.ykErrno }
      fail

def ykCheckFirmwareVersion2 (_st : YkStatus) : Bool := true

/-- A call without which nothing goes on. -/
def orErrOne {α : Type} (x : Yk σ α) : Proc (MainState σ) α := do
  match ← attempt (onSession (onKey x)) with
  | some a => pure a
  | none => errOne

def printStatus (st : YkStatus) : Proc (MainState σ) Unit := do
  printf ("Firmware version " ++ toString st.versionMajor ++ "." ++ toString st.versionMinor ++
    "." ++ toString st.versionBuild ++ " Touch level " ++ toString st.touchLevel ++ " ")
  if st.pgmSeq ≠ 0 then printf ("Program sequence " ++ toString st.pgmSeq ++ "\n")
  else printf "Unconfigured\n"

def checkFirmware (st : YkStatus) : Proc (MainState σ) Unit :=
  if ykCheckFirmwareVersion2 st then pure ⟨⟩
  else do
    let m ← get
    if m.session.world.ykErrno = some .EFIRMWARE then
      printf ("Unsupported firmware revision - some features may not be available\nPlease see \n" ++
        "https://developers.yubico.com/yubikey-personalization/doc/Compatibility.html\n" ++
        "for more information.\n")
    else fail

def openKey (keyIndex : ℤ) : Proc (MainState σ) YkStatus := do
  orErrOne (busCall U.ykusbStart)
  orErrOne (ykOpenKey U keyIndex)
  modify fun m => { m with keyOpen := true }
  let st ← orErrOne (ykGetStatus U.toHost)
  printStatus st
  checkFirmware st
  pure st

/-! ## The options -/

def parseArguments (st : YkStatus) (fuel : ℕ) : Proc (MainState σ) Unit := do
  match ← optionStep .argsToConfig (onSession (onArgs (argsToConfig (M.argsEnv st) fuel))) with
  | some _ => pure ⟨⟩
  | none => fail

/-- How `set_oath_id` ends is not looked at. -/
def applyOathId (st : YkStatus) : Proc (MainState σ) Unit := do
  let m ← get
  if m.session.args.oathid ≠ [] then do
    let _ ← optionStep .setOathId
      (onSession (setOathId (M.argsEnv st) U.toHost m.session.args.oathid))
    pure ⟨⟩
  else pure ⟨⟩

/-- A code of six bytes; `shown` is what the message calls it. -/
def decodeAccessCode (step : OptionStep) (code : List Char) (shown : String) :
    Proc (MainState σ) Decoded := do
  let d := hexModhexDecode M.args code 12 12 false
  match ← optionStep step (if d.rc ≤ 0 then fail else pure d) with
  | some d => pure d
  | none => do
    eprintf ("Invalid access code string: " ++ shown ++ "\n")
    errOne

def setAccessCode (d : Decoded) : Proc (MainState σ) Unit := do
  let _ ← attempt (onConfig (ykpSetAccessCode (d.stored.take (d.resultlen.getD 0))))
  pure ⟨⟩

/-- `-c`; the message shows `optarg`, which is null behind the scan. -/
def applyAccessCode : Proc (MainState σ) Unit := do
  let m ← get
  match m.session.args.accessCode with
  | none => pure ⟨⟩
  | some code => do
    let d ← decodeAccessCode M .accessCode code "(null)"
    modify fun m => { m with accessCode := storeFront m.accessCode d.stored }
    if m.session.args.newAccessCode.isNone then setAccessCode d else pure ⟨⟩

/-- `-oaccess`. -/
def applyNewAccessCode : Proc (MainState σ) Unit := do
  let m ← get
  match m.session.args.newAccessCode with
  | none => pure ⟨⟩
  | some code => do
    let d ← decodeAccessCode M .newAccessCode code (String.ofList code)
    setAccessCode d

def printSerial (st : YkStatus) : Proc (MainState σ) Unit := do
  let m ← get
  if m.session.args.verbose && (st.versionMajor > 2 ||
      (st.versionMajor = 2 && st.versionMinor ≥ 2) ||
      (st.versionMajor = 2 && st.versionMinor = 1 && st.versionBuild ≥ 4)) then do
    match ← attempt (onSession (onKey (ykGetSerial U.toHost 0 0))) with
    | none => printf "Failed to read serial number (serial-api-visible disabled?).\n"
    | some serial => printf ("Serial number : " ++ toString serial.toInt32 ++ "\n")
  else pure ⟨⟩

/-! ## Files -/

/-- An open input: the standard input, or what a file holds. -/
inductive Input where
  | stdin
  | file (contents : List Char)

def openInput : Proc (MainState σ) (Option Input) := do
  let m ← get
  match m.session.args.infname with
  | none => pure none
  | some name =>
    if name = ['-'] then pure (some .stdin)
    else
      match M.readFile name with
      | .ok contents => pure (some (.file contents))
      | .error message => do
        eprintf ("Couldn't open " ++ String.ofList name ++ " for reading: " ++ message ++ "\n")
        errOne

/-- An output, or none, or an exit. -/
inductive Output where
  | none
  | file (fwrite : List Char → Bool)
  | exit (code : ℕ)

def openOutput : Proc (MainState σ) Output := do
  let m ← get
  match m.session.args.outfname with
  | .none => pure .none
  | some name =>
    match M.writeFile name with
    | .ok fwrite => pure (.file fwrite)
    | .error message => do
      eprintf ("Couldn't open " ++ String.ofList name ++ " for writing: " ++ message ++ "\n")
      pure (.exit 1)

/-- Up to 1024 characters. -/
def fread : Input → Proc (MainState σ) (List Char)
  | .stdin => do
    let m ← get
    onSession (onArgs (modify fun s => { s with stdin := s.stdin.drop 1024 }))
    pure (m.session.args.stdin.take 1024)
  | .file contents => pure (contents.take 1024)

/-- `strlen` reads on where nothing ends the data. -/
def dataText : Proc (MainState σ) (List Char) := do
  let m ← get
  match CString.read m.data with
  | none => fault
  | some text => pure text

def importFile : Option Input → Proc (MainState σ) Unit
  | none => pure ⟨⟩
  | some inf => do
    onConfig ykpClearConfig
    let bytes ← fread inf
    if bytes = [] then fail
    else do
      modify fun m => { m with data := Buffer.store m.data 0 bytes }
      let text ← dataText
      let m ← get
      match ← optionStep (.importConfig text)
          (onConfig (ykpImportConfig M.jsonC m.data m.session.args.dataFormat.code)) with
      | some _ => pure ⟨⟩
      | none => fail

/-- What the export returns, which it leaves in the data. -/
def exportData (format : YkpFormat) : Proc (MainState σ) ℤ := do
  let m ← get
  let p ← onConfig (ykpExportConfig M.encoders M.jsonC m.cfg m.data 1024 format.code)
  modify fun m => { m with data := p.1 }
  pure p.2

def exportFile (fwrite : List Char → Bool) : Proc (MainState σ) Unit := do
  let m ← get
  let n ← exportData M m.session.args.dataFormat
  if n = 0 then fail
  else do
    let text ← dataText
    if fwrite text then pure ⟨⟩ else fail

/-! ## The commit -/

/-- `0x%x` of a mode. -/
def hexMode (mode : UInt8) : String := "0x" ++ String.ofList (Nat.toDigits 16 mode.toNat)

def announceMode (s : ArgsState) : Proc (MainState σ) Unit := do
  eprintf ("The USB mode will be set to: " ++ hexMode s.usbMode ++ "\n")
  if s.numModesSeen > 1 then do
    eprintf ("The challenge response timeout will be set to: " ++ toString s.crTimeout ++ "\n")
    if s.numModesSeen > 2 then
      eprintf ("The smartcard autoeject timeout will be set to: " ++
        toString s.autoejectTimeout ++ "\n")
    else pure ⟨⟩
  else pure ⟨⟩

/-- The number of the slot; `ykp_errno` is set where there is none. -/
def configNum : Proc (MainState σ) ℕ := onConfig ykpConfigNum

def announceConfig (s : ArgsState) : Proc (MainState σ) Unit := do
  let command := s.ykp.cfg.command
  if command = slotConfig ∨ command = slotConfig2 then do
    let n ← configNum
    eprintf ("Configuration data to be written to key configuration " ++ toString n ++ ":\n\n")
  else
    eprintf ("Configuration data to be updated in key configuration " ++
      (if command = slotUpdate1 then "1" else "2") ++ ":\n\n")
  let _ ← exportData M .legacy
  let text ← dataText
  eprintf (String.ofList text)

def announce : Proc (MainState σ) Unit := do
  let m ← get
  let s := m.session.args
  let command := s.ykp.cfg.command
  if command = slotSwap then eprintf "Configuration in slot 1 and 2 will be swapped\n"
  else if command = slotNdef ∨ command = slotNdef2 then
    eprintf ("New NDEF will be written as:\n" ++ String.ofList s.ndef ++ "\n")
  else if command = slotDeviceConfig then announceMode s
  else if command = slotScanMap then eprintf "A new scanmap will be written.\n"
  else if command = slotYk4SetDeviceInfo then eprintf "New device information will be written.\n"
  else if s.zap then do
    let n ← configNum
    eprintf ("Configuration in slot " ++ toString n ++ " will be deleted\n")
  else announceConfig M s

/-- Without its newline. -/
def stripNewline (line : List Char) : List Char :=
  if line.getLast? = some '\n' then line.dropLast else line

/-- With `-y` nothing is read. -/
def readAnswer : Proc (MainState σ) (List Char) := do
  let m ← get
  if m.session.args.autocommit then do
    printf "yes\n"
    pure "yes".toList
  else
    match fgets 256 m.session.args.stdin with
    | none => do
      onSession (onArgs (modify fun s => { s with stderr := s.stderr ++ [.perror "fgets"] }))
      fail
    | some (line, rest) => do
      onSession (onArgs (modify fun s => { s with stdin := rest }))
      let answer := stripNewline (line.takeWhile (· ≠ CString.nul))
      logAct (.answer answer)
      pure answer

def agrees (answer : List Char) : Bool := answer = "y".toList || answer = "yes".toList

/-- A call that programs the key; `failure` is printed where it fails. -/
def program (call : Programming) (failure : String) : Proc (MainState σ) Unit := do
  logAct (.program call)
  match ← attempt (onSession (onKey (call.run U.toHost))) with
  | some _ => pure ⟨⟩
  | none => do
    let m ← get
    printIf m.session.args.verbose failure
    fail

def constructNdef (s : ArgsState) : Proc (MainState σ) YkNdef := do
  let r ← attempt (onConfig
    (if s.ndefType = some 'U' then ykpConstructNdefUri ykpAllocNdef s.ndef
    else if s.ndefType = some 'T' then ykpConstructNdefText ykpAllocNdef s.ndef "en".toList false
    else fail))
  match r with
  | some ndef => pure ndef
  | none => do
    printIf s.verbose " failure to construct ndef\n"
    fail

def writeNdef (s : ArgsState) : Proc (MainState σ) Unit := do
  let ndef ← constructNdef s
  let m ← get
  let p := if s.accessCode.isSome then ykpSetNdefAccessCode ndef m.accessCode else (ndef, 1)
  if p.2 = 0 then do
    printIf s.verbose " failure to set ndef accesscode\n"
    fail
  else
    program U (.ndef p.1 (if s.ykp.cfg.command = slotNdef2 then 2 else 1))
      " failure to write ndef\n"

def deviceConfigOf (s : ArgsState) : YkDeviceConfig :=
  let d := ykpSetDeviceMode ykpAllocDeviceConfig s.usbMode
  if s.numModesSeen > 1 then
    let d := ykpSetDeviceChalrespTimeout d s.crTimeout
    if s.numModesSeen > 2 then ykpSetDeviceAutoejectTime d s.autoejectTimeout else d
  else d

/-- The modes that have no OTP. -/
def disablesOtp (mode : UInt8) : Bool :=
  mode &&& 0xf = modeCcid || mode &&& 0xf = modeU2f || mode &&& 0xf = modeU2fCcid

/-- Whether the writing went on; a mode without OTP is asked for once more. -/
def writeDeviceConfig (s : ArgsState) : Proc (MainState σ) Bool :=
  if disablesOtp s.usbMode then do
    eprintf ("WARNING: Changing mode will require you to use another tool (ykneomgr or " ++
      "u2f-host) to switch back if OTP mode is disabled, really commit? (y/n) [n]: ")
    let answer ← readAnswer
    if agrees answer then do
      program U (.deviceConfig (deviceConfigOf s)) " failure\n"
      pure true
    else pure false
  else do
    program U (.deviceConfig (deviceConfigOf s)) " failure\n"
    pure true

/-- The command for a slot; to delete one, the configuration is left out. -/
def slotProgramming (s : ArgsState) (accessCode : List UInt8) : Programming :=
  .command (if s.zap then none else some s.ykp.cfg.ykcoreConfig) s.ykp.cfg.command
    (if s.accessCode.isSome then some (charfield _ accessCode) else none)

def writeKey : Proc (MainState σ) Bool := do
  let m ← get
  let s := m.session.args
  let command := s.ykp.cfg.command
  if command = slotNdef ∨ command = slotNdef2 then do
    writeNdef U s
    pure true
  else if command = slotDeviceConfig then writeDeviceConfig U s
  else if command = slotScanMap then do
    program U (.scanMap s.scanBin) " failure\n"
    pure true
  else if command = slotYk4SetDeviceInfo then do
    program U (.deviceInfo s.deviceInfo (UInt32.ofNat s.deviceInfoLen)) " failure\n"
    pure true
  else do
    program U (slotProgramming s m.accessCode) " failure\n"
    pure true

def commit : Proc (MainState σ) Unit := do
  announce M
  eprintf "\nCommit? (y/n) [n]: "
  let answer ← readAnswer
  if agrees answer then do
    setExitCode 2
    let m ← get
    let s := m.session.args
    printIf s.verbose "Attempting to write configuration to the yubikey..."
    if s.dryRun then printf "Not writing anything to key due to dry_run requested.\n"
    else do
      let written ← writeKey U
      printIf (s.verbose && written) " success\n"
  else pure ⟨⟩

/-! ## The run -/

/-- Up to the return of `args_to_config`. -/
def parseOptions (fuel : ℕ) (keyIndex : ℤ) : Proc (MainState σ) YkStatus := do
  let st ← openKey U keyIndex
  parseArguments M st fuel
  pure st

/-- Up to the open files. -/
def prepare (fuel : ℕ) (keyIndex : ℤ) : Proc (MainState σ) (Option Input × Output) := do
  let st ← parseOptions U M fuel keyIndex
  applyOathId U M st
  applyAccessCode M
  applyNewAccessCode M
  printSerial U st
  printf "\n"
  let inf ← openInput M
  let outf ← openOutput M
  pure (inf, outf)

/-- From the key to the label `err`; an exit code stands for an `exit` on the way. -/
def personalize (fuel : ℕ) (keyIndex : ℤ) : Proc (MainState σ) (Option ℕ) := do
  let files ← prepare U M fuel keyIndex
  match files.2 with
  | .exit code => pure (some code)
  | .file fwrite => do
    importFile M files.1
    exportFile M fwrite
    setExitCode 0
    pure none
  | .none => do
    importFile M files.1
    commit U M
    setExitCode 0
    pure none

def reportYkError : Proc (MainState σ) Unit := do
  let m ← get
  logAct (.report m.session.args.ykp.ykpErrno m.session.world.ykErrno)

/-- A call of the end whose failure is reported. -/
def orReport (f : σ → Except (Option YkErr) Unit × σ) : Proc (MainState σ) Unit := do
  match ← attempt (onSession (onKey (busCall f))) with
  | some _ => pure ⟨⟩
  | none => do
    reportYkError
    setExitCode 2

def reportIf (error : Bool) : Proc (MainState σ) Unit :=
  if error then reportYkError else pure ⟨⟩

def closeKey : Proc (MainState σ) Unit := do
  let m ← get
  if m.keyOpen then orReport U.ykusbCloseDevice else pure ⟨⟩

/-- Behind the label `err`. -/
def leave (error : Bool) : Proc (MainState σ) ℕ := do
  reportIf error
  closeKey U
  orReport U.ykusbStop
  let m ← get
  pure m.session.args.exitCode

/-- `main`, which returns its exit code. -/
def ykpersonalize (fuel : ℕ) : Proc (MainState σ) ℕ := do
  let m ← get
  match prescan M fuel m.session.args.getopt 0 with
  | none => diverge
  | some (.leave code output) => do
    onSession (onArgs (modify fun s => { s with stderr := s.stderr ++ [output] }))
    pure code
  | some (.goOn keyIndex) => do
    match ← attempt (personalize U M fuel keyIndex) with
    | some (some code) => pure code
    | some none => leave U false
    | none => leave U true

end Main

end YkPers
