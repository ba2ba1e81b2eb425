import YkPers.YkpersArgs

/-!
# A host for the command line

libyubikey's two alphabets, and random devices of which `/dev/urandom` opens and delivers one byte
over and over.
-/

namespace YkPers

namespace ScriptedHost

def hexAlphabet : List Char := "0123456789abcdef".toList

def modhexAlphabet : List Char := "cbdefghijklnrtuv".toList

def accepts (alphabet str : List Char) : Bool := str.all alphabet.contains

def decodePairs (alphabet : List Char) : List Char → List UInt8
  | hi :: lo :: str =>
    UInt8.ofNat (16 * alphabet.idxOf hi + alphabet.idxOf lo) :: decodePairs alphabet str
  | _ => []

/-- The decoded bytes, and zeros behind them. -/
def decode (alphabet str : List Char) (n : ℕ) : Vector UInt8 n :=
  Vector.ofFn fun i => (decodePairs alphabet str).getD i 0

def fopen (place : String) : Option (ℕ → List UInt8) :=
  if place = "/dev/urandom" then some fun _ => List.replicate 20 0x5a else none

def env (major minor build : UInt8) : ArgsEnv where
  st := ⟨major, minor, build, 0, 0⟩
  oathidLen := 128
  ndefLen := 128
  yubikeyHexP := accepts hexAlphabet
  yubikeyModhexP := accepts modhexAlphabet
  yubikeyHexDecode := decode hexAlphabet
  yubikeyModhexDecode := decode modhexAlphabet
  fopen := fopen

def start (args : List String) : ArgsState :=
  .fresh (args.map String.toList) [] (List.replicate 46 0) (List.replicate 128 0)

/-- A configuration for challenges by HMAC, which has a key of 20 bytes. -/
def hmacConfig : YkpConfig :=
  { ykpAlloc with
    ykcoreConfig.tktFlags := tktflagChalResp
    ykcoreConfig.cfgFlags := cfgflagChalHmac }

end ScriptedHost

end YkPers
