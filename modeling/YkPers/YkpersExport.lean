import YkPers.YkpersJson

/-!
# The legacy export of `ykpers.c`

A line for each part of a configuration, one after the other in the memory behind a pointer.
-/

namespace YkPers

open Proc (fault)

def strKeyValueSeparator : String := ": "
def strHexPrefix : String := "h:"
def strModhexPrefix : String := "m:"
def strFixed : String := "fixed"
def strOathId : String := "OATH id"
def strUid : String := "uid"
def strKey : String := "key"
def strAccCode : String := "acc_code"
def strOathImf : String := "OATH IMF"
def strFlagsSeparator : String := "|"
def strTicketFlags : String := "ticket_flags"
def strConfigFlags : String := "config_flags"
def strExtendedFlags : String := "extended_flags"

section Lines

variable (Y : Encoders)

def legacyLine (key : String) (value : List Char) : List Char :=
  key.toList ++ strKeyValueSeparator.toList ++ value ++ ['\n']

/-- The fixed part is shown as a token identifier. -/
def oathIdShown (c : YkConfig) : Bool :=
  c.tktFlags &&& tktflagOathHotp = tktflagOathHotp && c.fixedSize ≠ 0

/-- `yubikey_modhex_encode` or `yubikey_hex_encode`. -/
def encodeIn (modhex : Bool) : List UInt8 → List Char :=
  if modhex then Y.yubikeyModhexEncode else Y.yubikeyHexEncode

/-- Eight bytes are encoded of the last part, and cut off behind twelve characters in all. -/
def legacyOathId (c : YkConfig) : List Char :=
  let has (flag : UInt8) : Bool := c.cfgFlags &&& flag = flag
  let first := encodeIn Y (has cfgflagOathFixedModhex1 || has cfgflagOathFixedModhex2 ||
    has cfgflagOathFixedModhex) (c.fixed.toList.take 1)
  let second := encodeIn Y (has cfgflagOathFixedModhex2 || has cfgflagOathFixedModhex)
    ((c.fixed.toList.drop 1).take 1)
  let mui := encodeIn Y (has cfgflagOathFixedModhex) ((c.fixed.toList.drop 2).take 8)
  (first ++ second ++ mui).take 12

def legacyFixed (c : YkConfig) : List Char :=
  if oathIdShown c then legacyLine strOathId (legacyOathId Y c)
  else legacyLine strFixed
    (strModhexPrefix.toList ++ Y.yubikeyModhexEncode (c.fixed.toList.take c.fixedSize.toNat))

def keyBitsInUid (cfg : YkpConfig) : Bool := ykpGetSupportedKeyLength cfg = 20

def legacyUid (cfg : YkpConfig) : List Char :=
  legacyLine strUid
    (if keyBitsInUid cfg then "n/a".toList else Y.yubikeyHexEncode cfg.ykcoreConfig.uid.toList)

def legacyKey (cfg : YkpConfig) : List Char :=
  legacyLine strKey (strHexPrefix.toList ++ Y.yubikeyHexEncode cfg.ykcoreConfig.key.toList ++
    if keyBitsInUid cfg then Y.yubikeyHexEncode (cfg.ykcoreConfig.uid.toList.take 4) else [])

def legacyAccCode (c : YkConfig) : List Char :=
  legacyLine strAccCode (strHexPrefix.toList ++ Y.yubikeyHexEncode c.accCode.toList)

def legacyOathImf (cfg : YkpConfig) : List (List Char) :=
  if cfg.ykcoreConfig.tktFlags &&& tktflagOathHotp = tktflagOathHotp ∧
      capabilityHasOathImf cfg = true then
    [legacyLine strOathImf (strHexPrefix.toList ++ Nat.toDigits 16 (ykpGetOathImf cfg))]
  else []

/-- `strncat`, into a buffer that has room for all texts of a table (`length_flagTexts_le`). -/
def appendFlag (buffer : List Char) (flagText : String) : List Char :=
  (if buffer = [] then [] else buffer ++ strFlagsSeparator.toList) ++ flagText.toList

def flagTexts (cfg : YkpConfig) (field : FlagField) : List String :=
  ((flagsMap field).filter fun p => cfg.ykcoreConfig.flags field &&& p.flag = p.flag &&
    p.capability cfg && p.isFor (exportMode cfg.ykcoreConfig)).map MapSt.flagText

/-- Not more than one flag is shown for a value. -/
def configFlagTexts (cfg : YkpConfig) : UInt8 → List MapSt → List String
  | _, [] => []
  | tFlags, p :: ps =>
    if tFlags &&& p.flag = p.flag ∧ p.capability cfg = true ∧
        p.isFor (exportMode cfg.ykcoreConfig) = true then
      p.flagText :: configFlagTexts cfg (tFlags - p.flag) ps
    else configFlagTexts cfg tFlags ps

def legacyFlags (key : String) (texts : List String) : List Char :=
  legacyLine key (texts.foldl appendFlag [])

def legacyLines (cfg : YkpConfig) : List (List Char) :=
  [legacyFixed Y cfg.ykcoreConfig, legacyUid Y cfg, legacyKey Y cfg,
      legacyAccCode Y cfg.ykcoreConfig] ++
    legacyOathImf cfg ++
    [legacyFlags strTicketFlags (flagTexts cfg .tkt),
      legacyFlags strConfigFlags (configFlagTexts cfg cfg.ykcoreConfig.cfgFlags configFlagsMap),
      legacyFlags strExtendedFlags (flagTexts cfg .ext)]

/-! ## The buffer

The same lines as they come about in `char buffer[256]`, which holds what was assembled last. A
step that writes past the end of the buffer is `none`. -/

/-- Behind what the line starts with stands what is assembled in the buffer. -/
structure LegacyPart where
  key : String
  start : String
  assemble : List Char → Option (List Char)

def oathIdInto (c : YkConfig) (buffer : List Char) : Option (List Char) := do
  let has (flag : UInt8) : Bool := c.cfgFlags &&& flag = flag
  let buffer ← CString.put buffer 0 (encodeIn Y (has cfgflagOathFixedModhex1 ||
    has cfgflagOathFixedModhex2 || has cfgflagOathFixedModhex) (c.fixed.toList.take 1))
  let buffer ← CString.put buffer 2 (encodeIn Y (has cfgflagOathFixedModhex2 ||
    has cfgflagOathFixedModhex) ((c.fixed.toList.drop 1).take 1))
  let buffer ← CString.put buffer 4
    (encodeIn Y (has cfgflagOathFixedModhex) ((c.fixed.toList.drop 2).take 8))
  pure (buffer.set 12 CString.nul)

def fixedPart (c : YkConfig) : LegacyPart :=
  if oathIdShown c then ⟨strOathId, "", oathIdInto Y c⟩
  else ⟨strFixed, strModhexPrefix, fun buffer =>
    CString.put buffer 0 (Y.yubikeyModhexEncode (c.fixed.toList.take c.fixedSize.toNat))⟩

def uidInto (cfg : YkpConfig) (buffer : List Char) : Option (List Char) :=
  CString.put buffer 0
    (if keyBitsInUid cfg then "n/a".toList else Y.yubikeyHexEncode cfg.ykcoreConfig.uid.toList)

def keyInto (cfg : YkpConfig) (buffer : List Char) : Option (List Char) := do
  let buffer ← CString.put buffer 0 (Y.yubikeyHexEncode cfg.ykcoreConfig.key.toList)
  if keyBitsInUid cfg then
    CString.put buffer (keySize * 2) (Y.yubikeyHexEncode (cfg.ykcoreConfig.uid.toList.take 4))
  else pure buffer

def accCodeInto (c : YkConfig) (buffer : List Char) : Option (List Char) :=
  CString.put buffer 0 (Y.yubikeyHexEncode c.accCode.toList)

/-- The separator stands in front of a flag that is not the first. -/
def concatFlag (buffer : List Char) (flagText : String) : Option (List Char) := do
  let shown ← CString.read buffer
  let buffer ← if shown = [] then pure buffer
    else CString.strncat buffer strFlagsSeparator.toList (256 - shown.length)
  let shown ← CString.read buffer
  CString.strncat buffer flagText.toList (256 - shown.length)

def concatFlags (texts : List String) (buffer : List Char) : Option (List Char) :=
  texts.foldlM concatFlag (buffer.set 0 CString.nul)

def legacyDataParts (cfg : YkpConfig) : List LegacyPart :=
  [fixedPart Y cfg.ykcoreConfig, ⟨strUid, "", uidInto Y cfg⟩, ⟨strKey, strHexPrefix, keyInto Y cfg⟩,
    ⟨strAccCode, strHexPrefix, accCodeInto Y cfg.ykcoreConfig⟩]

def legacyFlagParts (cfg : YkpConfig) : List LegacyPart :=
  [⟨strTicketFlags, "", concatFlags (flagTexts cfg .tkt)⟩,
   ⟨strConfigFlags, "",
      concatFlags (configFlagTexts cfg cfg.ykcoreConfig.cfgFlags configFlagsMap)⟩,
   ⟨strExtendedFlags, "", concatFlags (flagTexts cfg .ext)⟩]

/-- The lines, and the buffer behind the last one. -/
def assembleLines :
    List LegacyPart → List Char → Option (List (List Char) × List Char)
  | [], buffer => some ([], buffer)
  | p :: ps, buffer => do
    let buffer ← p.assemble buffer
    let value ← CString.read buffer
    let (lines, buffer) ← assembleLines ps buffer
    pure (legacyLine p.key (p.start.toList ++ value) :: lines, buffer)

/-- The moving factor is printed without the buffer. -/
def bufferedLines (cfg : YkpConfig) (buffer : List Char) : Option (List (List Char)) := do
  let (front, buffer) ← assembleLines (legacyDataParts Y cfg) buffer
  let (back, _) ← assembleLines (legacyFlagParts cfg) buffer
  pure (front ++ legacyOathImf cfg ++ back)

/-! ## The text -/

/-- One line after the other, up to one that ends behind `len`. -/
def emitLines (len : ℕ) : List Char → ℕ → List (List Char) → List Char × ℤ
  | buf, pos, [] => (buf, pos)
  | buf, pos, line :: lines =>
    let buf := CString.snprintf buf pos (len - pos) line
    if pos + line.length > len then (buf, -1) else emitLines len buf (pos + line.length) lines

/-- `_ykp_legacy_export_config`: the memory at `buf`, and the length of the text in it or -1. -/
def ykpLegacyExportConfig {S : Type} (cfg : YkpConfig) (buf : List Char) (len : ℕ) :
    Proc S (List Char × ℤ) :=
  if buf.length < len then fault
  -- the bytes behind `fixed` are read
  else if ¬ oathIdShown cfg.ykcoreConfig ∧ maxFixedSize < cfg.ykcoreConfig.fixedSize.toNat then
    fault
  else pure (emitLines len buf 0 (legacyLines Y cfg))

def ykpExportConfig (L : JsonC) (cfg : YkpConfig) (buf : List Char) (len : ℕ) (format : Int32) :
    Proc YkpState (List Char × ℤ) :=
  if format = ykpFormatYcfg then do
    let p ← ykpJsonExportCfg Y L cfg buf len
    pure (p.1, p.2)
  else if format = ykpFormatLegacy then ykpLegacyExportConfig Y cfg buf len
  else do
    Proc.modify fun s => { s with ykpErrno := some .EINVAL }
    pure (buf, 0)

/-- What the writer is given of `char buffer[1024]`. -/
def ykpWriteConfig {S : Type} (cfg : YkpConfig) (buffer : List Char) : Proc S (List Char) := do
  let (buffer, ret) ← ykpLegacyExportConfig Y cfg buffer 1024
  if ret ≠ 0 then
    match CString.read buffer with
    | none => fault
    | some text => pure text
  else Proc.fail

end Lines

end YkPers
