import YkPers.Lib.CString
import YkPers.Lib.Json
import YkPers.YkpersArgs
import YkPers.YkpersLcl

/-!
# Configurations as documents, `ykpers-json.c`

The export of a configuration and its import, with json-c as a `JsonC`. A text is the memory
behind a pointer, and a `size_t` that nothing reads is left out.
-/

namespace YkPers

open Proc (get fault attempt)

/-- The encoders of libyubikey: two characters for each byte. -/
structure Encoders where
  yubikeyHexEncode : List UInt8 → List Char
  yubikeyModhexEncode : List UInt8 → List Char

/-! ## Import -/

section Import

variable (L : JsonC)

/-- A call whose result is not looked at. -/
def dropping (x : Proc YkpState Unit) : Proc YkpState Unit := do
  let _ ← attempt x
  pure ⟨⟩

/-- The value of a key that has to be there. -/
def required (j : Json) (key : String) : Proc YkpState Json :=
  match j.get key with
  | some v => pure v
  | none => do
    ykpError .EINVAL
    pure .null

def targetCommand (target : Int32) : Option UInt8 :=
  if target = 1 then some slotConfig
  else if target = 2 then some slotConfig2
  else none

def importTarget (yprod : Json) : Proc YkpState Unit :=
  match yprod.get "targetConfig" with
  | none => pure ⟨⟩
  | some jtarget =>
    match targetCommand (L.getInt jtarget) with
    | none => ykpError .EINVAL
    | some command => do
      let s ← get
      if s.cfg.command = 0 then dropping (ykpConfigureCommand command)
      else if s.cfg.command ≠ command then ykpError .EINVAL
      else pure ⟨⟩

/-- A name that no mode has is taken for the mode of a Yubico OTP. -/
def modeOf (rawMode : String) : UInt8 :=
  ((modesMap.find? fun m => m.2 = rawMode).map Prod.fst).getD modeOtpYubico

def fixedSeed (options : Json) : Int32 := ((options.get "fixedSeedvalue").map L.getInt).getD 0

def importOathDigits (options : Json) : Proc YkpState Unit :=
  match options.get "oathDigits" with
  | some jdigits =>
    if L.getInt jdigits = 8 then dropping (ykpSetCfgflagOathHotp8 true) else pure ⟨⟩
  | none => pure ⟨⟩

/-- The seed is read where `randomSeed` is there. -/
def importSeed (options : Json) : Proc YkpState Unit :=
  match options.get "randomSeed" with
  | some jrandom =>
    if L.getBoolean jrandom then ykpError .ENORANDOM
    else dropping (ykpSetOathImf (sizeT (fixedSeed L options)))
  | none => pure ⟨⟩

def importMode (mode : UInt8) (options : Json) : Proc YkpState Unit :=
  if mode = modeOathHotp then do
    dropping (ykpSetTktflagOathHotp true)
    importOathDigits L options
    importSeed L options
  else if mode = modeChalHmac then do
    dropping (ykpSetTktflagChalResp true)
    dropping (ykpSetCfgflagChalHmac true)
  else if mode = modeChalYubico then do
    dropping (ykpSetTktflagChalResp true)
    dropping (ykpSetCfgflagChalYubico true)
  else if mode = modeStaticTicket then
    dropping (ykpSetCfgflagStaticTicket true)
  else pure ⟨⟩

def setJsonValue (mode : UInt8) (options : Json) (p : MapSt) : Proc YkpState Unit :=
  match p.jsonText with
  | none => pure ⟨⟩
  | some text =>
    if p.mode ≠ 0 ∧ p.isFor mode then
      match options.get text with
      | none => pure ⟨⟩
      | some joption =>
        if joption.isBoolean ∧ L.getBoolean joption then dropping (p.setter true) else pure ⟨⟩
    else pure ⟨⟩

def setJsonValues (mode : UInt8) (options : Json) : List MapSt → Proc YkpState Unit
  | [] => pure ⟨⟩
  | p :: ps => do
    setJsonValue L mode options p
    setJsonValues mode options ps

def requireDocument (jobj : Json) : Proc YkpState Unit :=
  if jobj.isNull then ykpError .EINVAL else pure ⟨⟩

/-- Behind the parser. -/
def importDocument (jobj : Json) : Proc YkpState Unit := do
  requireDocument jobj
  let yprod ← required jobj "yubiProdConfig"
  let jmode ← required yprod "mode"
  let options ← required yprod "options"
  importTarget L yprod
  match L.getString jmode with
  | none => fault
  | some rawMode => do
    importMode L (modeOf rawMode) options
    setJsonValues L (modeOf rawMode) options ticketFlagsMap
    setJsonValues L (modeOf rawMode) options configFlagsMap
    setJsonValues L (modeOf rawMode) options extendedFlagsMap

/-- `_ykp_json_import_cfg`. -/
def ykpJsonImportCfg (json : List Char) : Proc YkpState Unit :=
  match CString.read json with
  | none => fault
  | some text => importDocument L (L.tokenerParse text)

def ykpFormatLegacy : Int32 := 0x01
def ykpFormatYcfg : Int32 := 0x02

def YkpFormat.code : YkpFormat → Int32
  | .legacy => ykpFormatLegacy
  | .ycfg => ykpFormatYcfg

def ykpImportConfig (buf : List Char) (format : Int32) : Proc YkpState Unit :=
  if format = ykpFormatYcfg then ykpJsonImportCfg L buf
  else if format = ykpFormatLegacy then ykpError .ENOTYETIMPL
  else ykpError .EINVAL

end Import

/-! ## Export -/

section Export

variable (Y : Encoders)

def ykpAcccodeNone : UInt32 := 0x01
def ykpAcccodeRandom : UInt32 := 0x02
def ykpAcccodeSerial : UInt32 := 0x03

def exportTarget (cfg : YkpConfig) : List (String × Json) :=
  if cfg.command = slotConfig then [("targetConfig", .int 1)]
  else if cfg.command = slotConfig2 then [("targetConfig", .int 2)]
  else []

def exportProtection (cfg : YkpConfig) : List (String × Json) :=
  if cfg.ykpAcccodeType = ykpAcccodeNone then [("protection", .string "none")]
  else if cfg.ykpAcccodeType = ykpAcccodeRandom then [("protection", .string "random")]
  else if cfg.ykpAcccodeType = ykpAcccodeSerial then [("protection", .string "id")]
  else []

/-- The first two bytes of the fixed part, in the alphabets of its flags for a token identifier. -/
def exportPrefix (c : YkConfig) (mode : UInt8) : List Char :=
  let encoded := Y.yubikeyModhexEncode (c.fixed.toList.take 2)
  if mode = modeOathHotp then
    if c.cfgFlags &&& cfgflagOathFixedModhex = 0 then Y.yubikeyHexEncode (c.fixed.toList.take 2)
    else if c.cfgFlags &&& cfgflagOathFixedModhex = cfgflagOathFixedModhex1 then
      encoded.take 2 ++ Y.yubikeyHexEncode [c.fixed[1]]
    else encoded
  else encoded

def exportScope (c : YkConfig) (mode : UInt8) : List (String × Json) :=
  if c.fixedSize ≠ 0 ∧ mode ≠ modeStaticTicket then
    [("scope", .string (if mode = modeOtpYubico ∧ c.fixed[0] = 0 ∧ c.fixed[1] = 0 then "yubiCloud"
        else "privatePrefix")),
      ("prefix", .string (String.ofList (exportPrefix Y c mode)))]
  else if mode ≠ modeStaticTicket then [("scope", .string "noPublicId")]
  else []

def exportModhex (c : YkConfig) (mode : UInt8) : List (String × Json) :=
  if c.fixedSize ≠ 0 ∧ mode = modeOathHotp then
    [("fixedModhex",
      .boolean (c.cfgFlags &&& cfgflagOathFixedModhex = cfgflagOathFixedModhex))]
  else []

/-- The seeds 0 and 16 are shown, and any other one is called random. -/
def exportOath (c : YkConfig) (mode : UInt8) : List (String × Json) :=
  if mode = modeOathHotp then
    ("oathDigits", .int (if c.cfgFlags &&& cfgflagOathHotp8 = cfgflagOathHotp8 then 8 else 6)) ::
      if (c.imfLow = 1 ∨ c.imfLow = 0) ∧ c.imfHigh = 0 then
        [("fixedSeedvalue", .int (c.imfLow.toNat <<< 4 : ℕ)), ("randomSeed", .boolean false)]
      else [("randomSeed", .boolean true)]
  else []

def exportFlag (c : YkConfig) (field : FlagField) (mode : UInt8) (p : MapSt) :
    Option (String × Json) :=
  match p.jsonText with
  | none => none
  | some text =>
    if p.mode ≠ 0 ∧ p.isFor mode then
      some (text, .boolean (c.flags field &&& p.flag = p.flag))
    else none

def exportFlags (c : YkConfig) (mode : UInt8) (field : FlagField) : List (String × Json) :=
  (flagsMap field).filterMap (exportFlag c field mode)

def exportOptions (c : YkConfig) (mode : UInt8) : Json :=
  (Json.object []).adds (exportModhex c mode ++ exportOath c mode ++ exportFlags c mode .tkt ++
    exportFlags c mode .cfg ++ exportFlags c mode .ext)

/-- The name of a mode; none of the computed modes is without one. -/
def exportModeName (mode : UInt8) : List (String × Json) :=
  ((modesMap.find? fun m => m.1 = mode).map fun m => ("mode", Json.string m.2)).toList

def exportDocument (cfg : YkpConfig) : Json :=
  let c := cfg.ykcoreConfig
  let mode := exportMode c
  (Json.object []).add "yubiProdConfig"
    ((Json.object []).adds (exportModeName mode ++ exportTarget cfg ++ exportProtection cfg ++
      [("options", exportOptions c mode)] ++ exportScope Y c mode))

/-- `_ykp_json_export_cfg`: the memory at `json`, and the length of the text in it. -/
def ykpJsonExportCfg {S : Type} (L : JsonC) (cfg : YkpConfig) (json : List Char) (len : ℕ) :
    Proc S (List Char × ℕ) :=
  if json.length < len then fault
  else
    let json :=
      Buffer.store json 0 (CString.strncpy len (L.toJsonString (exportDocument Y cfg)))
    let json := if 0 < len then json.set (len - 1) CString.nul else json
    match CString.read json with
    | none => fault
    | some text => pure (json, text.length)

end Export

end YkPers
