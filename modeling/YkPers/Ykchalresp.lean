import YkPers.Ykpersonalize

/-!
# Challenge and response on the command line, `ykchalresp.c`

`ykchalresp` is `main`: it runs on the key, the console, and a log of the challenges that were
sent. The challenge is memory at a pointer, up to its end, and a length. Messages of the operating
system and of `getopt` are left out.
-/

namespace YkPers

namespace Ykchalresp

open Proc (get modify fail attempt)

def optstring : List Char := "1268xvhHtYNVi:n:".toList

abbrev sha1MaxBlockSize : ℕ := 64

/-! ## The environment and the state -/

/-- What the program only reads. A file that does not open is `none`. -/
structure Env where
  time : ℤ
  fopen : List Char → Option (List UInt8)
  stdin : List UInt8
  yubikeyHexP : List Char → Bool
  yubikeyHexDecode : List Char → (n : ℕ) → Vector UInt8 n
  encoders : Encoders
  ykpersVersionString : String

/-- What `report_yk_error` writes is the code that it finds. -/
inductive Message where
  | text (s : String)
  | usage
  | ykError (e : YkErr)
  deriving DecidableEq

/-- A call of `yk_challenge_response`, and the response where it succeeded. -/
structure Exchange where
  ykCmd : UInt8
  mayBlock : Bool
  challenge : List UInt8
  response : Option (List UInt8)

structure State (σ : Type) where
  world : World σ
  keyOpen : Bool
  stdout : List String
  stderr : List Message
  exchanges : List Exchange

def State.start {σ : Type} (dev : σ) : State σ := ⟨⟨dev, none, []⟩, false, [], [], []⟩

/-! ## `parse_args` -/

inductive Input where
  | stdin
  | file (contents : List UInt8)

/-- The variables of `main` that `parse_args` writes, and its own. -/
structure Vars where
  slot : ℕ
  verbose : Bool
  hmac : Bool
  mayBlock : Bool
  totp : Bool
  digits : ℕ
  keyIndex : ℤ
  hexEncoded : Bool
  input : Option Input

def Vars.start : Vars where
  slot := 1
  verbose := false
  hmac := true
  mayBlock := true
  totp := false
  digits := 0
  keyIndex := 0
  hexEncoded := false
  input := none

section Parse

variable (E : Env)

/-- One turn of the switch; an error is a return of 0 with what was written before it. -/
def parseOption (v : Vars) : Getopt.Scanned → Except (List Message) Vars
  | .flag '1' => .ok { v with slot := 1 }
  | .flag '2' => .ok { v with slot := 2 }
  | .flag 'H' => .ok { v with hmac := true }
  | .flag 'N' => .ok { v with mayBlock := false }
  | .flag 't' => .ok { v with totp := true, hmac := true }
  | .flag '6' => .ok { v with digits := 6 }
  | .flag '8' => .ok { v with digits := 8 }
  | .flag 'Y' => .ok { v with hmac := false, totp := false }
  | .flag 'x' => .ok { v with hexEncoded := true }
  | .flag 'v' => .ok { v with verbose := true }
  | .arg 'i' optarg =>
    if optarg ≠ ['-'] then .ok { v with input := (E.fopen optarg).map .file }
    else .ok { v with input := some .stdin }
  | .arg 'n' optarg => .ok { v with keyIndex := atoi optarg }
  | .flag 'V' => .error [.text (E.ykpersVersionString ++ "\n")]
  | _ => .error [.usage]

/-- A challenge: what its pointer points at, and its length. -/
structure Challenge where
  mem : List UInt8
  len : ℕ

/-- The characters up to the NUL. -/
def cString (mem : List UInt8) : List Char :=
  (mem.takeWhile (· ≠ 0)).map fun b => Char.ofNat b.toNat

def totpChallenge (time : ℤ) : Challenge :=
  let tCounter : UInt32 := UInt32.ofInt time
  let tCounter := tCounter / 30
  ⟨[0, 0, 0, 0, ((tCounter &&& 0xff000000) >>> 24).toUInt8,
    ((tCounter &&& 0x00ff0000) >>> 16).toUInt8, ((tCounter &&& 0x0000ff00) >>> 8).toUInt8,
    (tCounter &&& 0x000000ff).toUInt8], 8⟩

def readInput (input : Input) : List UInt8 :=
  match input with
  | .stdin => E.stdin.take 64
  | .file contents => contents.take 64

/-- The challenge before it is decoded; `arg` is the element behind the options. -/
def rawChallenge (v : Vars) (arg : Option (List Char)) : Except (List Message) Challenge :=
  if v.totp && v.hmac then .ok (totpChallenge E.time)
  else
    match v.input with
    | some input =>
      let buf := readInput E input
      if buf.length = 0 then .error [.text "Failed to read any data from file.\n"]
      else .ok ⟨buf ++ List.replicate (65 - buf.length) 0, buf.length⟩
    | none =>
      let arg := arg.getD []
      .ok ⟨arg.map (fun c => UInt8.ofNat c.toNat) ++ [0], arg.length⟩

def hexChallenge (c : Challenge) : Except (List Message) Challenge :=
  if c.len > sha1MaxBlockSize * 2 then
    .error [.text ("Hex-encoded challenge too long (max " ++ toString (sha1MaxBlockSize * 2) ++
      " chars)\n")]
  else if c.len % 2 ≠ 0 then
    .error [.text "Odd number of characters in hex-encoded challenge\n"]
  else if E.yubikeyHexP (cString c.mem) then
    .ok ⟨(E.yubikeyHexDecode (cString c.mem) sha1MaxBlockSize).toList, c.len / 2⟩
  else .error [.text ("Bad hex-encoded string '" ++ String.ofList (cString c.mem) ++ "'\n")]

/-- The options that are scanned, up to the one that ends it. -/
def options (argv : List (List Char)) : List Getopt.Scanned :=
  (Getopt.scan optstring (Getopt.start argv)).1

def parseArgs (argv : List (List Char)) : Except (List Message) (Vars × Challenge) := do
  let v ← (options argv).foldlM (parseOption E) Vars.start
  let optind := (Getopt.scan optstring (Getopt.start argv)).2.optind
  if (optind ≥ argv.length ∧ !v.totp ∧ v.input.isNone) ∨
      (optind < argv.length ∧ v.totp ∧ v.input.isSome) then
    .error [.text "No challenge.\n", .usage]
  else do
    let c ← rawChallenge E v argv[optind]?
    let c ← if v.hexEncoded then hexChallenge E c else pure c
    pure (v, c)

end Parse

/-! ## The key -/

section Key

variable {σ α : Type}

def onKey (x : Yk σ α) : Proc (State σ) α :=
  Proc.zoom State.world (fun w s => { s with world := w }) x

def printf (text : String) : Proc (State σ) Unit :=
  modify fun s => { s with stdout := s.stdout ++ [text] }

def fprintf (text : String) : Proc (State σ) Unit :=
  modify fun s => { s with stderr := s.stderr ++ [.text text] }

def onlyIf (c : Bool) (x : Proc (State σ) Unit) : Proc (State σ) Unit := if c then x else pure ⟨⟩

variable (U : Usb σ) (E : Env)

def checkFirmware (verbose : Bool) : Proc (State σ) Unit := do
  let st ← onKey (ykGetStatus U.toHost)
  onlyIf verbose (printf ("Firmware version " ++ toString st.versionMajor ++ "." ++
    toString st.versionMinor ++ "." ++ toString st.versionBuild ++ "\n"))
  if st.versionMajor < 2 ∨ (st.versionMajor = 2 ∧ st.versionMinor < 2) then do
    fprintf "Challenge-response not supported before YubiKey 2.2.\n"
    fail
  else pure ⟨⟩

/-- `%0nu`. -/
def zeroPadded (n k : ℕ) : List Char := List.leftpad n '0' (Nat.toDigits 10 k)

def binCode (response : List UInt8) : UInt32 :=
  let offset := (response.getD 19 0 &&& 0xf).toNat
  ((response.getD offset 0 &&& 0x7f).toUInt32 <<< 24)
    ||| ((response.getD (offset + 1) 0 &&& 0xff).toUInt32 <<< 16)
    ||| ((response.getD (offset + 2) 0 &&& 0xff).toUInt32 <<< 8)
    ||| (response.getD (offset + 3) 0 &&& 0xff).toUInt32

/-- What is printed of a response. -/
def responseText (hmac : Bool) (digits : ℕ) (response : List UInt8) : List Char :=
  let expectBytes := if hmac then 20 else 16
  if digits ≠ 0 ∧ hmac then
    if digits = 8 then zeroPadded 8 (binCode response % 100000000).toNat
    else zeroPadded 6 (binCode response % 1000000).toNat
  else if hmac then E.encoders.yubikeyHexEncode (response.take expectBytes)
  else E.encoders.yubikeyModhexEncode (response.take expectBytes)

def slotCommand (slot : ℕ) (hmac : Bool) : Option UInt8 :=
  if slot = 1 then some (if hmac then slotChalHmac1 else slotChalOtp1)
  else if slot = 2 then some (if hmac then slotChalHmac2 else slotChalOtp2)
  else none

/-- The call of `yk_challenge_response`, which is logged. -/
def exchange (ykCmd : UInt8) (mayBlock : Bool) (c : Challenge) : Proc (State σ) (List UInt8) := do
  let r ← attempt (onKey (ykChallengeResponse U.toHost ykCmd mayBlock (UInt32.ofNat c.len) c.mem
    (UInt32.ofNat sha1MaxBlockSize)))
  modify fun s => { s with exchanges := s.exchanges ++ [⟨ykCmd, mayBlock, c.mem.take c.len, r⟩] }
  match r with
  | some response => pure response
  | none => fail

def challengeResponse (v : Vars) (c : Challenge) : Proc (State σ) Unit := do
  onlyIf v.verbose (fprintf ("Sending " ++ toString c.len ++ " bytes " ++
    (if v.hmac then "HMAC" else "Yubico") ++ " challenge to slot " ++ toString v.slot ++ "\n"))
  match slotCommand v.slot v.hmac with
  | none => fail
  | some ykCmd => do
    let response ← exchange U ykCmd v.mayBlock c
    printf (String.ofList (responseText E v.hmac v.digits response) ++ "\n")

/-! ## `main` -/

def reportYkError : Proc (State σ) Unit := modify fun s =>
  match s.world.ykErrno with
  | some e => { s with stderr := s.stderr ++ [.ykError e] }
  | none => s

/-- Up to the label `err`. -/
def session (v : Vars) (c : Challenge) : Proc (State σ) Unit := do
  onKey (busCall U.ykusbStart)
  onKey (ykOpenKey U v.keyIndex)
  modify fun s => { s with keyOpen := true }
  checkFirmware U v.verbose
  challengeResponse U E v c

/-- A call of the end: where it fails, the exit code is 2. -/
def orReport (f : σ → Except (Option YkErr) Unit × σ) (exitCode : ℕ) : Proc (State σ) ℕ := do
  match ← attempt (onKey (busCall f)) with
  | some _ => pure exitCode
  | none => do
    reportYkError
    pure 2

def closeKey (exitCode : ℕ) : Proc (State σ) ℕ := do
  let s ← get
  if s.keyOpen then orReport U.ykusbCloseDevice exitCode else pure exitCode

/-- Behind the label `err`. -/
def leave (error : Bool) : Proc (State σ) ℕ := do
  onlyIf error reportYkError
  let exitCode ← closeKey U (if error then 1 else 0)
  orReport U.ykusbStop exitCode

def ykchalresp (argv : List (List Char)) : Proc (State σ) ℕ := do
  match parseArgs E argv with
  | .error messages => do
    modify fun s => { s with stderr := s.stderr ++ messages }
    pure 0
  | .ok (v, c) => do
    let r ← attempt (session U E v c)
    leave U r.isNone

end Key

end Ykchalresp

end YkPers
