import YkPers.Proofs.Hmac
import YkPers.Proofs.KeyGeneration

/-!
# The key of a passphrase is PBKDF2 over HMAC-SHA-1

With the HMAC of the library no call fails, so that a passphrase and a salt always give a key.
-/

namespace YkPers

open BlockHash (bits)
open Pbkdf2 (be32 derived derived_congr input)

/-- `PBKDF2` with the keyed hash of the standard. -/
noncomputable def hmacSha1Spec (key text : List UInt8) : List UInt8 :=
  BlockHash.hmac SecureHash.sha1 64 key (bits text)

theorem length_hmacSha1Spec (key text : List UInt8) : (hmacSha1Spec key text).length = 20 :=
  ShaVersion.length_hash .sha1 _

/-! ## Sizes that become an `int` -/

theorem asInt_lt (n : ℕ) : asInt n < 2 ^ 31 := by
  rw [asInt]
  split <;> omega

theorem asInt_le (n : ℕ) : asInt n ≤ n := by
  rw [asInt]
  split <;> omega

theorem asInt_emod (n : ℕ) : (asInt n % 2 ^ 32).toNat = n % 2 ^ 32 := by
  rw [asInt]
  split <;> omega

/-- The key of a call: it is cut off at `2 ^ 32` bytes and their multiples, and empty where its
length becomes negative. -/
def castKey (key : List UInt8) : List UInt8 := key.take (asInt key.length).toNat

section Hmac

variable (M : Stale)

theorem hmacSha1_eq {text : List UInt8} (htext : text.length < 2 ^ 32) (key : List UInt8) :
    (hmacSha1 M text key).map Vector.toList = some (hmacSha1Spec (castKey key) text) := by
  have hcast : takeUnsigned text (asInt text.length) = text := by
    rw [takeUnsigned, asInt_emod, Nat.mod_eq_of_lt htext, List.take_length]
  have hle := asInt_le key.length
  have hrun := hmac_run M .sha1 text (asInt text.length) (asInt_lt key.length)
    (show (asInt key.length).toNat ≤ key.length by omega)
  rw [hcast] at hrun
  rw [hmacSha1, hrun]
  exact congrArg (Option.map Vector.toList) (dif_pos (length_hmacSha1Spec (castKey key) text))

/-- The environment with the HMAC of the library. -/
def withHmac (P : PassphraseEnv) : PassphraseEnv :=
  { P with hmacSha1 := hmacSha1 M }

variable {M} {P : PassphraseEnv} {passphrase : List UInt8}

theorem hmacSha1_ne_none {text : List UInt8} (htext : text.length < 2 ^ 32) :
    (withHmac M P).hmacSha1 text passphrase ≠ none := by
  intro hnone
  have h := hmacSha1_eq M htext passphrase
  rw [show hmacSha1 M text passphrase = none from hnone] at h
  cases h

theorem prf_withHmac {text : List UInt8} (htext : text.length < 2 ^ 32) :
    (withHmac M P).prf passphrase text = hmacSha1Spec (castKey passphrase) text := by
  obtain ⟨digest, hd, hlist⟩ := Option.map_eq_some_iff.1 (hmacSha1_eq M htext passphrase)
  have henv : (withHmac M P).hmacSha1 text passphrase = some digest := hd
  rw [PassphraseEnv.prf, henv]
  exact hlist

variable {salt : List UInt8}

variable (M P passphrase) in
theorem length_input (salt : List UInt8) (i j : ℕ) :
    (input ((withHmac M P).prf passphrase) (salt.take 8) i j).length < 2 ^ 32 := by
  cases j with
  | zero =>
    have := List.length_take_le 8 salt
    rw [input, Function.iterate_zero_apply, List.length_append]
    simp only [be32, List.length_cons, List.length_nil]
    omega
  | succ j =>
    rw [input, Function.iterate_succ_apply', PassphraseEnv.prf, Vector.length_toList]
    decide

theorem succeeds_withHmac : (withHmac M P).Succeeds passphrase salt :=
  fun j _ => hmacSha1_ne_none (length_input M P passphrase salt 1 j)

theorem derivedKey_withHmac (n : ℕ) : (withHmac M P).derivedKey passphrase salt n
    = derived (hmacSha1Spec (castKey passphrase)) (salt.take 8) 20 1024 n := by
  refine derived_congr (P := fun text => text.length < 2 ^ 32) (fun i => ?_) (fun text h => ?_) n
  · exact length_input M P passphrase salt i 0
  · refine ⟨prf_withHmac h, ?_⟩
    rw [PassphraseEnv.prf, Vector.length_toList]
    decide

/-- A passphrase with a salt always gives a key: PBKDF2 over HMAC-SHA-1 of the standard, with the
first eight bytes of the salt and 1024 iterations. -/
theorem ykpAesKeyFromPassphrase_pbkdf2 (M : Stale) (P : PassphraseEnv) (passphrase : List UInt8)
    {salt : List UInt8} (hsalt : salt ≠ []) {fuel : ℕ} (hfuel : 2 ≤ fuel) (s : YkpState) :
    ∃ c', ykpAesKeyFromPassphrase (withHmac M P) fuel passphrase (some salt) s
        = (.ok ⟨⟩, { s with cfg.ykcoreConfig := c' }) ∧
      Keyed s.cfg.ykcoreConfig c' (ykpGetSupportedKeyLength s.cfg)
        (derived (hmacSha1Spec (castKey passphrase)) (salt.take 8) 20 1024
          (ykpGetSupportedKeyLength s.cfg)) := by
  have hn := ykpGetSupportedKeyLength_cases s.cfg
  have hbuf : ((withHmac M P).buf.toList.take (ykpGetSupportedKeyLength s.cfg)).length
      = ykpGetSupportedKeyLength s.cfg := by
    rw [List.length_take, Vector.length_toList]
    exact Nat.min_eq_left (by simp only [keySize]; omega)
  rw [← derivedKey_withHmac (P := P) (M := M), ykpAesKeyFromPassphrase_run hsalt,
    Proc.bind_ok (pbkdf2Buffer_ok succeeds_withHmac (by omega) (by omega) hfuel s), hbuf]
  exact ⟨_, rfl, keyed_store _ hn (length_derivedKey _)⟩

end Hmac

open ScriptedHost (hmacConfig) in
/-- A key for AES, and a longer one for HMAC. -/
theorem ykpAesKeyFromPassphrase_pbkdf2_fresh :
    (∃ c', ykpAesKeyFromPassphrase (withHmac zeroStale endedDevice) 2 [7] (some [1, 2])
        ⟨ykpAlloc, none⟩ = (.ok ⟨⟩, ⟨{ ykpAlloc with ykcoreConfig := c' }, none⟩) ∧
      Keyed ykpAlloc.ykcoreConfig c' 16
        (derived (hmacSha1Spec (castKey [7])) [1, 2] 20 1024 16)) ∧
    ∃ c', ykpAesKeyFromPassphrase (withHmac zeroStale endedDevice) 2 [7] (some [1, 2])
        ⟨hmacConfig, none⟩ = (.ok ⟨⟩, ⟨{ hmacConfig with ykcoreConfig := c' }, none⟩) ∧
      Keyed hmacConfig.ykcoreConfig c' 20
        (derived (hmacSha1Spec (castKey [7])) [1, 2] 20 1024 20) :=
  ⟨ykpAesKeyFromPassphrase_pbkdf2 zeroStale endedDevice [7] (List.cons_ne_nil 1 [2])
      (Nat.le_refl 2) ⟨ykpAlloc, none⟩,
    ykpAesKeyFromPassphrase_pbkdf2 zeroStale endedDevice [7] (List.cons_ne_nil 1 [2])
      (Nat.le_refl 2) ⟨hmacConfig, none⟩⟩

/-- The passphrase `password` with the salt `salt`, in one iteration. -/
example : (ykPbkdf2 (ykHmacSha1 (withHmac zeroStale endedDevice))
    [0x70, 0x61, 0x73, 0x73, 0x77, 0x6f, 0x72, 0x64] [0x73, 0x61, 0x6c, 0x74] 1 zeroScratch 2
    ⟨List.replicate 20 0, []⟩).2.dk
      = [0x0c, 0x60, 0xc8, 0x0f, 0x96, 0x1f, 0x0e, 0x71, 0xf3, 0xa9, 0xb5, 0x24, 0xaf, 0x60, 0x12,
        0x06, 0x2f, 0xe0, 0x37, 0xa6] := by
  decide +kernel

end YkPers
