import YkPers.Ykpbkdf2
import YkPers.Ykpers

/-!
# The key of a passphrase, `ykpers.c`

`ykpAesKeyFromPassphrase` is `ykp_AES_key_from_passphrase`, for a configuration that is there. A
string is the bytes before its NUL; returning 0 is `fail`. The salt of a null pointer is read from
a random device. `fuel` bounds the calls of `fread` and the number of blocks.
-/

namespace YkPers

open Proc (get modify fail fault diverge)

def sha1HashSize : ℕ := 20

/-- `hmac` with SHA-1, which gives a digest or fails; what `fopen` finds delivers bytes call after
call. `scratch` and `buf` are the contents of uninitialised memory. -/
structure PassphraseEnv where
  hmacSha1 : (text key : List UInt8) → Option (Vector UInt8 sha1HashSize)
  fopen : String → Option (ℕ → List UInt8)
  scratch : Scratch
  buf : Vector UInt8 (keySize + 4)

/-- `yk_hmac_sha1`, with the size of its output. -/
def ykHmacSha1 (P : PassphraseEnv) : YkPrfMethod where
  outputSize := 20
  prfFn key text outputSize :=
    if outputSize < sha1HashSize then none else (P.hmacSha1 text key).map Vector.toList
  bounded key text size out h := by
    split_ifs at h with hsize
    obtain ⟨digest, -, rfl⟩ := Option.map_eq_some_iff.1 h
    rw [Vector.length_toList]
    exact Nat.not_lt.1 hsize

def saltPlaces : List String := ["/dev/srandom", "/dev/urandom", "/dev/random"]

def readSalt (source : ℕ → List UInt8) : ℕ → ℕ → List UInt8 → Proc YkpState (List UInt8)
  | 0, _, _ => diverge
  | fuel + 1, i, salt =>
    if salt.length < 8 then
      readSalt source fuel (i + 1) (salt ++ (source i).take (8 - salt.length))
    else pure salt

/-- The first bytes of `_salt` that are set, of which there are `_salt_len`. -/
def passphraseSalt (P : PassphraseEnv) (fuel : ℕ) :
    Option (List UInt8) → Proc YkpState (List UInt8)
  | some salt => pure (salt.take 8)
  | none =>
    match saltPlaces.findSome? P.fopen with
    | some source => readSalt source fuel 0 []
    | none => pure []

/-- The buffer behind a call of `yk_pbkdf2`. -/
def pbkdf2Buffer (x : Proc DkState Unit) (buf : List UInt8) : Proc YkpState (List UInt8) := fun s =>
  match x ⟨buf, []⟩ with
  | (.ok _, d) => (.ok d.dk, s)
  | (.fail, _) => (.fail, s)
  | (.fault, _) => (.fault, s)
  | (.diverge, _) => (.diverge, s)

def ykpAesKeyFromPassphrase (P : PassphraseEnv) (fuel : ℕ) (passphrase : List UInt8)
    (salt : Option (List UInt8)) : Proc YkpState Unit := do
  let s ← get
  let keyBytes := ykpGetSupportedKeyLength s.cfg
  let salt ← passphraseSalt P fuel salt
  if salt.length = 0 then ykpError .ENORANDOM
  else do
    let buf ← pbkdf2Buffer (ykPbkdf2 (ykHmacSha1 P) passphrase salt 1024 P.scratch fuel)
      (P.buf.toList.take keyBytes)
    ykpStore fun c => { c with
      key := charfield _ buf
      uid := if keyBytes = 20 then charfield _ ((buf.drop keySize).take 4 ++ c.uid.toList.drop 4)
        else c.uid }

end YkPers
