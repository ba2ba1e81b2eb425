import YkPers.KeyGeneration
import YkPers.YkpersJson

/-!
# Calls on a configuration, `ykpers.c`

The functions that change a configuration behind its pointer, as data, and the configurations that
a program comes to by them. It writes nothing through the pointer of `ykp_core_config`.
-/

namespace YkPers

/-- `yubikey_hex_p` and `yubikey_hex_decode`. -/
structure HexDecoder where
  yubikeyHexP : List Char → Bool
  yubikeyHexDecode : List Char → (n : ℕ) → Vector UInt8 n

/-- The setter of a flag is that of its entry, and an import is no call here. What a passphrase
finds of devices and memory comes with its call. -/
inductive YkpCall where
  | clearConfig
  | configureVersion (st : YkStatus)
  | configureCommand (command : UInt8)
  | configureFor (confnum : Int32) (st : YkStatus)
  | setAccessCode (accessCode : List UInt8)
  | setFixed (fixed : List UInt8)
  | setUid (uid : List UInt8)
  | setOathImf (imf : ℕ)
  | setFlag (field : FlagField) (p : MapSt) (hp : p ∈ flagsMap field) (state : Bool)
  | aesKeyFromHex (hexkey : List Char)
  | hmacKeyFromHex (hexkey : List Char)
  | aesKeyFromRaw (key : List UInt8)
  | hmacKeyFromRaw (key : List UInt8)
  | aesKeyFromPassphrase (P : PassphraseEnv) (fuel : ℕ) (passphrase : List UInt8)
      (salt : Option (List UInt8))
  | setAcccodeType (type : UInt32)

variable (D : HexDecoder)

def YkpCall.run : YkpCall → Proc YkpState Unit
  | .clearConfig => ykpClearConfig
  | .configureVersion st => ykpConfigureVersion st
  | .configureCommand command => ykpConfigureCommand command
  | .configureFor confnum st => ykpConfigureFor confnum st
  | .setAccessCode accessCode => ykpSetAccessCode accessCode
  | .setFixed fixed => ykpSetFixed fixed
  | .setUid uid => ykpSetUid uid
  | .setOathImf imf => ykpSetOathImf imf
  | .setFlag _ p _ state => p.setter state
  | .aesKeyFromHex hexkey => ykpAesKeyFromHex D.yubikeyHexP D.yubikeyHexDecode hexkey
  | .hmacKeyFromHex hexkey => ykpHmacKeyFromHex D.yubikeyHexP D.yubikeyHexDecode hexkey
  | .aesKeyFromRaw key => ykpAesKeyFromRaw key
  | .hmacKeyFromRaw key => ykpHmacKeyFromRaw key
  | .aesKeyFromPassphrase P fuel passphrase salt => ykpAesKeyFromPassphrase P fuel passphrase salt
  | .setAcccodeType type => ykpSetAcccodeType type

/-- A program has the configuration after calls that have returned, with whatever `ykp_errno` each
of them has found. -/
inductive Reachable : YkpConfig → Prop
  | alloc : Reachable ykpAlloc
  | create (ykpAcccodeType : UInt32) : Reachable (ykpCreateConfig ykpAcccodeType)
  | call {cfg : YkpConfig} (h : Reachable cfg) (c : YkpCall) (ykpErrno : Option YkpErr)
      (hret : (c.run D).Returns ⟨cfg, ykpErrno⟩) : Reachable (c.run D ⟨cfg, ykpErrno⟩).2.cfg
  | importConfig {cfg : YkpConfig} (h : Reachable cfg) (L : JsonC) (buf : List Char)
      (format : Int32) (ykpErrno : Option YkpErr)
      (hret : (ykpImportConfig L buf format).Returns ⟨cfg, ykpErrno⟩) :
      Reachable (ykpImportConfig L buf format ⟨cfg, ykpErrno⟩).2.cfg

end YkPers
