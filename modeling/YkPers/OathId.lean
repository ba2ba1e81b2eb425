import YkPers.Ykcore
import YkPers.YkpersArgs

/-!
# The token identifier, `set_oath_id` of `ykpers-args.c`

It runs on the variables of the command line and on the key, which it asks for its serial number
where the option gives no identifier. Returning 0 is `fail`.
-/

namespace YkPers

open Proc (get fail attempt)

structure Session (σ : Type) where
  args : ArgsState
  world : World σ

section Session

variable {σ α : Type}

def onArgs (x : Proc ArgsState α) : Proc (Session σ) α :=
  Proc.zoom Session.args (fun a s => { s with args := a }) x

def onKey (x : Yk σ α) : Proc (Session σ) α :=
  Proc.zoom Session.world (fun w s => { s with world := w }) x

def failWithText (msg : String) : Proc (Session σ) α := do
  onArgs (fprintf msg)
  fail

end Session

def yubicoOathVendorIdHex : UInt8 := 0xe1
def yubicoHotpEventTokenType : UInt8 := 0x63

/-- `%08i` of a number below `10 ^ 8`. -/
def eightDigits (n : ℕ) : List Char :=
  (List.range 8).reverse.map fun i => Nat.digitChar (n / 10 ^ i % 10)

/-- Two decimal digits as the two hexadecimal digits of a byte; there is room for `room` bytes. -/
def formatDecimalAsHex : (room : ℕ) → List Char → Option (List UInt8)
  | room, a :: b :: src =>
    if room = 0 then none
    else (formatDecimalAsHex (room - 1) src).map
      (((UInt8.ofNat a.toNat - 48) * 0x10 + UInt8.ofNat b.toNat - 48) :: ·)
  | _, _ => some []

/-- The bytes of `dst`, which is all zeros before. -/
def formatOathId (dstLen : ℕ) (vendor type : UInt8) (mui : UInt32) : Option (List UInt8) :=
  if mui.toNat > 99999999 then none
  else if dstLen < 2 + 8 then none
  else (formatDecimalAsHex (dstLen - 2) (eightDigits mui.toNat)).map fun bytes =>
    Buffer.store (List.replicate dstLen 0) 0 (vendor :: type :: bytes)

section

variable {σ : Type} (E : ArgsEnv) (H : Host σ)

/-- The identifier that the option gives. -/
def setSuppliedId (token : List Char) : Proc (Session σ) Unit := do
  match ← attempt (onArgs (setFixed E token)) with
  | some _ => pure ⟨⟩
  | none => failWithText ("Invalid OATH token identifier " ++ String.ofList token ++
      " supplied with oath-id=.\n")

def hasSerial (st : YkStatus) : Bool :=
  st.versionMajor > 2 || (st.versionMajor = 2 && st.versionMinor ≥ 2)

/-- The identifier made of the serial number. -/
def setSerialId : Proc (Session σ) Unit :=
  if !hasSerial E.st then failWithText
    ("YubiKey " ++ toString E.st.versionMajor ++ "." ++ toString E.st.versionMinor ++ "." ++
      toString E.st.versionBuild ++
      " does not support reading serial number. Can't use -ooath-id.\n")
  else do
    match ← attempt (onKey (ykGetSerial H 0 0)) with
    | none => failWithText "YubiKey refuses reading serial number. Can't use -ooath-id.\n"
    | some serial =>
      match formatOathId 12 yubicoOathVendorIdHex yubicoHotpEventTokenType serial with
      | none => failWithText "Failed formatting OATH token identifier.\n"
      | some oathId => do
        match ← attempt (onArgs (onYkp (ykpSetFixed (oathId.take 6)))) with
        | some _ => pure ⟨⟩
        | none => failWithText "Failed setting OATH token identifier.\n"

def setOathId (opt : List Char) : Proc (Session σ) Unit := do
  let s ← get
  if ykpGetTktflagOathHotp s.args.ykp.cfg then do
    onArgs (onYkp (ykpSetCfgflagOathFixedModhex2 true))
    onArgs (onYkp (ykpSetExtflagSerialApiVisible true))
    if 7 < opt.length then setSuppliedId E (opt.drop 8) else setSerialId E H
  else failWithText "Option oath-id= only valid with -ooath-hotp or -ooath-hotp8.\n"

end

end YkPers
