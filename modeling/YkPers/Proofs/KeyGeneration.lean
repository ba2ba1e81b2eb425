import YkPers.KeyGeneration
import YkPers.Lib.Fread
import YkPers.Proofs.Ykpbkdf2
import YkPers.ScriptedHost

/-!
# Keys from passphrases and from random devices

The output for a passphrase is one block of the derivation, so that nothing of another block is
taken into it. The two loops that read a random device are the same reading loop (`Fread.fill`),
which ends exactly when the device delivers enough.
-/

namespace YkPers

open Pbkdf2 (be32 blocks derived input take_derived length_derived)

/-! ## The key of a passphrase -/

section Passphrase

variable (P : PassphraseEnv) (passphrase : List UInt8)

/-- HMAC-SHA1 of a text, where it does not fail. -/
def PassphraseEnv.prf (text : List UInt8) : List UInt8 :=
  ((P.hmacSha1 text passphrase).getD (Vector.replicate _ 0)).toList

theorem outputSize_pos : 0 < (ykHmacSha1 P).outputSize := Nat.succ_pos 19

theorem ykHmacSha1_fits : (ykHmacSha1 P).Fits (P.prf passphrase) :=
  ⟨fun _ => Vector.length_toList, show 20 ≤ blockSize by decide⟩

theorem prfFn_ykHmacSha1 (text : List UInt8) :
    (ykHmacSha1 P).prfFn passphrase text blockSize
      = (P.hmacSha1 text passphrase).map Vector.toList := rfl

theorem prf_of_some (text out : List UInt8)
    (h : (ykHmacSha1 P).prfFn passphrase text blockSize = some out) :
    P.prf passphrase text = out := by
  rw [prfFn_ykHmacSha1] at h
  obtain ⟨digest, hd, rfl⟩ := Option.map_eq_some_iff.1 h
  rw [PassphraseEnv.prf, hd, Option.getD_some]

/-- The bytes that are derived for a key of `n` bytes, from the first eight of the salt. -/
def PassphraseEnv.derivedKey (salt : List UInt8) (n : ℕ) : List UInt8 :=
  derived (P.prf passphrase) (salt.take 8) 20 1024 n

/-- None of the calls of HMAC-SHA1 fails. -/
def PassphraseEnv.Succeeds (salt : List UInt8) : Prop :=
  ∀ j < 1024, P.hmacSha1 (input (P.prf passphrase) (salt.take 8) 1 j) passphrase ≠ none

variable {P passphrase} {salt : List UInt8}

theorem callsSucceed_of_succeeds (h : P.Succeeds passphrase salt) :
    CallsSucceed (ykHmacSha1 P) passphrase (salt.take 8) (P.prf passphrase) 1024 1 := by
  intro k j hk hj
  obtain rfl : k = 0 := by omega
  obtain ⟨digest, hd⟩ := Option.ne_none_iff_exists'.1 (h j hj)
  rw [prfFn_ykHmacSha1, hd, PassphraseEnv.prf, hd]
  rfl

theorem blocks_of_le {h n : ℕ} (hn : 0 < n) (hle : n ≤ h) : blocks h n = 1 :=
  Nat.div_eq_of_lt_le (by omega) (by omega)

theorem salt_fits (salt : List UInt8) : (salt.take 8).length + 4 ≤ blockSize := by
  rw [List.length_take, blockSize]
  omega

theorem pbkdf2Buffer_ok (h : P.Succeeds passphrase salt) {buf : List UInt8} (hpos : 0 < buf.length)
    (hle : buf.length ≤ 20) {fuel : ℕ} (hfuel : 2 ≤ fuel) (s : YkpState) :
    pbkdf2Buffer (ykPbkdf2 (ykHmacSha1 P) passphrase (salt.take 8) 1024 P.scratch fuel) buf s
      = (.ok (P.derivedKey passphrase salt buf.length), s) := by
  have hblocks : blocks (ykHmacSha1 P).outputSize buf.length = 1 := blocks_of_le hpos hle
  have hcalls : CallsSucceed (ykHmacSha1 P) passphrase (salt.take 8) (P.prf passphrase) 1024
      (blocks (ykHmacSha1 P).outputSize buf.length) := by
    rw [hblocks]
    exact callsSucceed_of_succeeds h
  obtain ⟨d, hrun, hdk⟩ := ykPbkdf2_derived (ykHmacSha1_fits P passphrase) (outputSize_pos P)
    (Nat.succ_pos 1023) (salt_fits salt) (Nat.le_trans hle (by decide)) hcalls P.scratch
    (.inl rfl) (by rw [hblocks]; exact hfuel) []
  rw [pbkdf2Buffer, hrun]
  dsimp only
  rw [hdk]
  rfl

theorem pbkdf2Buffer_fail (h : ¬ P.Succeeds passphrase salt) {buf : List UInt8}
    (hpos : 0 < buf.length) (hle : buf.length ≤ 20) {fuel : ℕ} (hfuel : 0 < fuel) (s : YkpState) :
    pbkdf2Buffer (ykPbkdf2 (ykHmacSha1 P) passphrase (salt.take 8) 1024 P.scratch fuel) buf s
      = (.fail, s) := by
  obtain ⟨fuel, rfl⟩ := Nat.exists_eq_succ_of_ne_zero (Nat.ne_of_gt hfuel)
  simp only [PassphraseEnv.Succeeds, not_forall, not_not] at h
  obtain ⟨j, hj, hnone⟩ := h
  have hfail := ykPbkdf2_fail (ykHmacSha1_fits P passphrase) (prf_of_some P passphrase)
    (outputSize_pos P) (salt_fits salt) hpos (Nat.le_trans hle (by decide))
    ⟨j, hj, by rw [prfFn_ykHmacSha1, hnone]; rfl⟩ P.scratch fuel []
  rw [pbkdf2Buffer, Proc.run_eq hfail]

/-- The key field holds the front of the bytes, and with a key of 20 bytes the front of `uid`
holds the others; nothing else differs. -/
structure Keyed (c c' : YkConfig) (n : ℕ) (bytes : List UInt8) : Prop where
  key : c'.key.toList = bytes.take keySize
  uid : c'.uid.toList
    = if n = 20 then bytes.drop keySize ++ c.uid.toList.drop 4 else c.uid.toList
  rest : { c' with key := c.key, uid := c.uid } = c

theorem length_derivedKey (n : ℕ) : (P.derivedKey passphrase salt n).length = n :=
  length_derived (by decide) n

theorem keyed_store (c : YkConfig) {n : ℕ} (hn : n = 20 ∨ n = 16) {bytes : List UInt8}
    (hbytes : bytes.length = n) : Keyed c { c with
      key := charfield _ bytes
      uid := if n = 20 then charfield _ ((bytes.drop keySize).take 4 ++ c.uid.toList.drop 4)
        else c.uid } n bytes where
  key := toList_charfield (by simp only [keySize]; omega)
  uid := by
    split_ifs with h20
    · have htake : (bytes.drop keySize).take 4 = bytes.drop keySize :=
        List.take_of_length_le (by simp only [List.length_drop, keySize]; omega)
      have hlen : (bytes.drop keySize ++ c.uid.toList.drop 4).length = uidSize := by
        simp only [List.length_append, List.length_drop, Vector.length_toList, keySize, uidSize]
        omega
      rw [htake, toList_charfield (Nat.le_of_eq hlen.symm), List.take_of_length_le
        (Nat.le_of_eq hlen)]
    · rfl
  rest := rfl

theorem ykpAesKeyFromPassphrase_run (hsalt : salt ≠ []) (fuel : ℕ) (s : YkpState) :
    ykpAesKeyFromPassphrase P fuel passphrase (some salt) s = (do
      let buf ← pbkdf2Buffer
        (ykPbkdf2 (ykHmacSha1 P) passphrase (salt.take 8) 1024 P.scratch fuel)
        (P.buf.toList.take (ykpGetSupportedKeyLength s.cfg))
      ykpStore fun c => { c with
        key := charfield _ buf
        uid := if ykpGetSupportedKeyLength s.cfg = 20
          then charfield _ ((buf.drop keySize).take 4 ++ c.uid.toList.drop 4) else c.uid }) s := by
  have hne : (salt.take 8).length ≠ 0 := by
    have := List.length_pos_iff.2 hsalt
    rw [List.length_take]
    omega
  rw [ykpAesKeyFromPassphrase, Proc.get_bind_run, passphraseSalt, Proc.pure_bind_run, if_neg hne]

/-- The function stores the bytes that the passphrase and the salt derive where there is a salt and
no call of HMAC-SHA1 fails, and otherwise returns 0 and leaves the configuration as it is; a key of
16 bytes is the front of one of 20. -/
theorem ykpAesKeyFromPassphrase_derives (P : PassphraseEnv) (passphrase salt : List UInt8)
    {fuel : ℕ} (hfuel : 2 ≤ fuel) (s : YkpState) :
    (salt ≠ [] → P.Succeeds passphrase salt →
      ∃ c', ykpAesKeyFromPassphrase P fuel passphrase (some salt) s
          = (.ok ⟨⟩, { s with cfg.ykcoreConfig := c' }) ∧
        Keyed s.cfg.ykcoreConfig c' (ykpGetSupportedKeyLength s.cfg)
          (P.derivedKey passphrase salt (ykpGetSupportedKeyLength s.cfg))) ∧
    (salt = [] ∨ ¬ P.Succeeds passphrase salt →
      ∃ t, ykpAesKeyFromPassphrase P fuel passphrase (some salt) s = (.fail, t) ∧
        t.cfg = s.cfg) ∧
    P.derivedKey passphrase salt 16 = (P.derivedKey passphrase salt 20).take 16 := by
  have hn := ykpGetSupportedKeyLength_cases s.cfg
  have hbuf : (P.buf.toList.take (ykpGetSupportedKeyLength s.cfg)).length
      = ykpGetSupportedKeyLength s.cfg := by
    rw [List.length_take, Vector.length_toList]
    exact Nat.min_eq_left (by simp only [keySize]; omega)
  have hpos : 0 < (P.buf.toList.take (ykpGetSupportedKeyLength s.cfg)).length := by omega
  have hle : (P.buf.toList.take (ykpGetSupportedKeyLength s.cfg)).length ≤ 20 := by omega
  refine ⟨fun hsalt hprf => ?_, ?_, (take_derived (by decide) (by decide)).symm⟩
  · rw [ykpAesKeyFromPassphrase_run hsalt, Proc.bind_ok (pbkdf2Buffer_ok hprf hpos hle hfuel s),
      hbuf]
    exact ⟨_, rfl, keyed_store _ hn (length_derivedKey _)⟩
  · rcases salt with _ | ⟨b, salt⟩
    · exact fun _ => ⟨{ s with ykpErrno := some .ENORANDOM }, rfl, rfl⟩
    · intro h
      have hprf := h.resolve_left (List.cons_ne_nil b salt)
      rw [ykpAesKeyFromPassphrase_run (List.cons_ne_nil b salt),
        Proc.bind_fail (pbkdf2Buffer_fail hprf hpos hle (by omega) s)]
      exact ⟨s, rfl, rfl⟩

end Passphrase

/-! ## Random devices -/

section Random

open Fread (delivered fill Supplies fill_ends_iff fill_result)

theorem readRandom_run (source : ℕ → List UInt8) (n : ℕ) (s : ArgsState) :
    ∀ (fuel i : ℕ) (keybuf : List UInt8), readRandom source n fuel i keybuf s
      = ((fill source n fuel i keybuf).elim .diverge .ok, s)
  | 0, _, _ => rfl
  | fuel + 1, i, keybuf => by
    rw [readRandom, fill]
    split_ifs
    · exact readRandom_run source n s fuel (i + 1) _
    · rfl

theorem readSalt_run (source : ℕ → List UInt8) (s : YkpState) :
    ∀ (fuel i : ℕ) (salt : List UInt8), readSalt source fuel i salt s
      = ((fill source 8 fuel i salt).elim .diverge .ok, s)
  | 0, _, _ => rfl
  | fuel + 1, i, salt => by
    rw [readSalt, fill]
    split_ifs
    · exact readSalt_run source s fuel (i + 1) _
    · rfl

/-- The first bytes that the first device that opens delivers. -/
def FilledFrom (fopen : String → Option (ℕ → List UInt8)) (places : List String) (n : ℕ)
    (buf : List UInt8) : Prop :=
  ∃ source, places.findSome? fopen = some source ∧ buf.length = n ∧
    ∃ k, buf = (delivered source k).take n

/-- No device opens, or the first that opens delivers `n` bytes in finitely many calls. -/
def Supplied (fopen : String → Option (ℕ → List UInt8)) (places : List String) (n : ℕ) : Prop :=
  ∀ source, places.findSome? fopen = some source → Supplies source n

/-- The loop for a random key of `n` bytes has filled its buffer, or there is no randomness. -/
def KeyGathered (E : ArgsEnv) (fuel n : ℕ) (s : ArgsState) : Prop :=
  (∃ buf t, randomKey E fuel n s = (.ok buf, t) ∧ FilledFrom E.fopen randomPlaces n buf) ∨
    ∃ t, randomKey E fuel n s = (.fail, t) ∧ t.ykp.ykpErrno = some .ENORANDOM

/-- The loop for a random salt has filled its buffer, or there is no randomness. -/
def SaltGathered (P : PassphraseEnv) (fuel : ℕ) (passphrase : List UInt8) (s : YkpState) : Prop :=
  (∃ salt t, passphraseSalt P fuel none s = (.ok salt, t) ∧
      FilledFrom P.fopen saltPlaces 8 salt) ∨
    ∃ t, ykpAesKeyFromPassphrase P fuel passphrase none s = (.fail, t) ∧
      t.ykpErrno = some .ENORANDOM

/-- A loop that ends when its buffer is filled ends for the devices that supply it. -/
theorem gathered_iff {fopen : String → Option (ℕ → List UInt8)} {places : List String} {n : ℕ}
    {Gathered : ℕ → Prop} (hnone : places.findSome? fopen = none → Gathered 0)
    (hfill : ∀ source, places.findSome? fopen = some source →
      ∀ fuel, Gathered fuel ↔ ∃ buf, fill source n fuel 0 [] = some buf) :
    (∃ fuel, Gathered fuel) ↔ Supplied fopen places n := by
  rcases hplaces : places.findSome? fopen with _ | source
  · refine iff_of_true ⟨0, hnone hplaces⟩ fun source h => ?_
    rw [hplaces] at h
    cases h
  · have hsupplied : Supplied fopen places n ↔ Supplies source n := by
      refine ⟨fun h => h source hplaces, fun h source' h' => ?_⟩
      obtain rfl := Option.some.inj (hplaces.symm.trans h')
      exact h
    rw [hsupplied, ← fill_ends_iff]
    exact exists_congr (hfill source hplaces)

theorem keyGathered_iff (E : ArgsEnv) (n : ℕ) (s : ArgsState) :
    (∃ fuel, KeyGathered E fuel n s) ↔ Supplied E.fopen randomPlaces n := by
  refine gathered_iff (fun hplaces => ?_) fun source hplaces fuel => ?_
  · have hfail : randomKey E 0 n s
        = (.fail, { s with ykp.ykpErrno := some .ENORANDOM, exitCode := 1 }) := by
      rw [randomKey, hplaces]
      rfl
    exact .inr ⟨_, hfail, rfl⟩
  · have hrun : randomKey E fuel n s = ((fill source n fuel 0 []).elim .diverge .ok, s) := by
      rw [randomKey, hplaces]
      exact readRandom_run source n s fuel 0 []
    constructor
    · rintro (⟨buf, t, h, -⟩ | ⟨t, h, -⟩) <;> rw [hrun] at h <;>
        rcases hf : fill source n fuel 0 [] with _ | buf' <;> rw [hf] at h <;> cases h
      exact ⟨_, rfl⟩
    · rintro ⟨buf, h⟩
      exact .inl ⟨buf, s, by rw [hrun, h]; rfl, source, hplaces, fill_result h⟩

theorem saltGathered_iff (P : PassphraseEnv) (passphrase : List UInt8) (s : YkpState) :
    (∃ fuel, SaltGathered P fuel passphrase s) ↔ Supplied P.fopen saltPlaces 8 := by
  refine gathered_iff (fun hplaces => ?_) fun source hplaces fuel => ?_
  · have hfail : ykpAesKeyFromPassphrase P 0 passphrase none s
        = (.fail, { s with ykpErrno := some .ENORANDOM }) := by
      rw [ykpAesKeyFromPassphrase, Proc.get_bind_run, passphraseSalt, hplaces]
      rfl
    exact .inr ⟨_, hfail, rfl⟩
  · have hrun : passphraseSalt P fuel none s
        = ((fill source 8 fuel 0 []).elim .diverge .ok, s) := by
      rw [passphraseSalt, hplaces]
      exact readSalt_run source s fuel 0 []
    constructor
    · intro h
      rcases hf : fill source 8 fuel 0 [] with _ | buf
      · -- out of fuel, neither the salt nor the whole function returns
        have hdiverge : passphraseSalt P fuel none s = (.diverge, s) := by
          rw [hrun, hf]
          rfl
        rcases h with ⟨salt, t, h, -⟩ | ⟨t, h, -⟩
        · rw [hdiverge] at h
          cases h
        · rw [ykpAesKeyFromPassphrase, Proc.get_bind_run, Proc.bind_diverge hdiverge] at h
          cases h
      · exact ⟨buf, rfl⟩
    · rintro ⟨buf, h⟩
      exact .inl ⟨buf, s, by rw [hrun, h]; rfl, source, hplaces, fill_result h⟩

/-- The two loops end, with the buffer filled from one device or without randomness, exactly when
no device opens or the first that opens delivers enough bytes. -/
theorem randomness_gathered_iff (E : ArgsEnv) (P : PassphraseEnv) (passphrase : List UInt8) (n : ℕ)
    (s : ArgsState) (t : YkpState) :
    ((∃ fuel, KeyGathered E fuel n s) ↔ Supplied E.fopen randomPlaces n) ∧
      ((∃ fuel, SaltGathered P fuel passphrase t) ↔ Supplied P.fopen saltPlaces 8) :=
  ⟨keyGathered_iff E n s, saltGathered_iff P passphrase t⟩

end Random

section Runs

open ScriptedHost (hmacConfig)

/-- A digest of all bytes that it is given; `/dev/urandom` opens, and is at its end. -/
def endedDevice : PassphraseEnv where
  hmacSha1 text key := some (Vector.ofFn fun i =>
    (key ++ text).foldl (fun a b => 31 * a + b) (UInt8.ofNat i))
  fopen place := if place = "/dev/urandom" then some fun _ => [] else none
  scratch := zeroScratch
  buf := Vector.replicate _ 0

/-- A key for AES, and a longer one for HMAC. -/
theorem ykpAesKeyFromPassphrase_derives_fresh :
    (∃ c', ykpAesKeyFromPassphrase endedDevice 2 [7] (some [1, 2]) ⟨ykpAlloc, none⟩
        = (.ok ⟨⟩, ⟨{ ykpAlloc with ykcoreConfig := c' }, none⟩) ∧
      Keyed ykpAlloc.ykcoreConfig c' 16 (endedDevice.derivedKey [7] [1, 2] 16)) ∧
    ∃ c', ykpAesKeyFromPassphrase endedDevice 2 [7] (some [1, 2]) ⟨hmacConfig, none⟩
        = (.ok ⟨⟩, ⟨{ hmacConfig with ykcoreConfig := c' }, none⟩) ∧
      Keyed hmacConfig.ykcoreConfig c' 20 (endedDevice.derivedKey [7] [1, 2] 20) :=
  ⟨(ykpAesKeyFromPassphrase_derives endedDevice [7] [1, 2] (Nat.le_refl 2) ⟨ykpAlloc, none⟩).1
      (List.cons_ne_nil 1 [2]) fun _ _ => Option.some_ne_none _,
    (ykpAesKeyFromPassphrase_derives endedDevice [7] [1, 2] (Nat.le_refl 2) ⟨hmacConfig, none⟩).1
      (List.cons_ne_nil 1 [2]) fun _ _ => Option.some_ne_none _⟩

/-- A device that opens and is at its end keeps both loops going. -/
theorem randomness_ended :
    (¬ ∃ fuel, KeyGathered { ScriptedHost.env 3 0 0 with fopen := endedDevice.fopen } fuel 16
      (ScriptedHost.start ["ykpersonalize", "-1"])) ∧
    ¬ ∃ fuel, SaltGathered endedDevice fuel [7] ⟨ykpAlloc, none⟩ := by
  have hnone : ∀ n k, (Fread.delivered (fun _ => ([] : List UInt8)) k).length = n → n = 0 := by
    rintro n k rfl
    simp [Fread.delivered]
  rw [keyGathered_iff, saltGathered_iff]
  constructor
  · intro h
    obtain ⟨k, hk⟩ := h (fun _ => []) rfl
    rw [hnone _ k rfl] at hk
    omega
  · intro h
    obtain ⟨k, hk⟩ := h (fun _ => []) rfl
    rw [hnone _ k rfl] at hk
    omega

end Runs

end YkPers
