import YkPers.Proofs.ImportConfig
import YkPers.ScriptedHost
import YkPers.YkpersCalls

/-!
# What calls leave of a configuration

A call looks before it stores (`Checked`): one that fails has changed nothing, and none puts bytes
behind the fixed part. Of all calls only `ykpConfigureFor` stores first, and slot 2 is refused
behind the defaults of slot 2 (`failed_call_changes_nothing_iff`). So the fixed part is padded with
zeros in every configuration that a program comes to (`Reachable.fixedPadded`).
-/

namespace YkPers

open Proc (Moves Spares)

/-- The command and the configuration that is sent are as before. -/
structure SameConfig (s s' : YkpState) : Prop where
  command : s'.cfg.command = s.cfg.command
  ykcoreConfig : s'.cfg.ykcoreConfig = s.cfg.ykcoreConfig

theorem SameConfig.of_cfg {s s' : YkpState} (h : s'.cfg = s.cfg) : SameConfig s s' :=
  ⟨by rw [h], by rw [h]⟩

theorem SameConfig.trans (a b c : YkpState) (h : SameConfig a b) (k : SameConfig b c) :
    SameConfig a c :=
  ⟨k.command.trans h.command, k.ykcoreConfig.trans h.ykcoreConfig⟩

/-- Behind its size, the fixed part is zero. -/
structure FixedPadded (c : YkConfig) : Prop where
  size : c.fixedSize.toNat ≤ maxFixedSize
  rest : ∀ b ∈ c.fixed.toList.drop c.fixedSize.toNat, b = 0

theorem FixedPadded.congr {c c' : YkConfig} (h : FixedPadded c) (hfixed : c'.fixed = c.fixed)
    (hsize : c'.fixedSize = c.fixedSize) : FixedPadded c' :=
  ⟨by rw [hsize]; exact h.size, by rw [hfixed, hsize]; exact h.rest⟩

theorem fixedPadded_of_zero {c : YkConfig} (hfixed : c.fixed = Vector.replicate _ 0)
    (hsize : c.fixedSize = 0) : FixedPadded c := by
  refine ⟨by rw [hsize]; decide, fun b hb => ?_⟩
  rw [hfixed, hsize] at hb
  exact List.eq_of_mem_replicate (List.mem_of_mem_drop hb)

def KeepsPadded (s s' : YkpState) : Prop :=
  FixedPadded s.cfg.ykcoreConfig → FixedPadded s'.cfg.ykcoreConfig

/-! ## Calls that look before they store -/

/-- Failing, a call has changed nothing, and it puts no bytes behind the fixed part. -/
structure Checked (x : Proc YkpState Unit) : Prop where
  spares : ∀ s, Spares SameConfig x s
  padded : Moves KeepsPadded x

namespace Checked

theorem error (e : YkpErr) : Checked (ykpError e) :=
  ⟨fun _ => .of_moves fun _ => .of_cfg rfl, fun _ => id⟩

theorem modify {g : YkpState → YkpState} (hg : ∀ s, KeepsPadded s (g s)) :
    Checked (Proc.modify g) := ⟨fun _ => .of_ok rfl, hg⟩

theorem store {f : YkConfig → YkConfig} (hf : ∀ c, FixedPadded c → FixedPadded (f c)) :
    Checked (ykpStore f) := modify fun s => hf s.cfg.ykcoreConfig

theorem ite {c : Prop} [Decidable c] {x y : Proc YkpState Unit} (hx : Checked x)
    (hy : Checked y) : Checked (if c then x else y) :=
  ⟨fun s => .ite (hx.spares s) (hy.spares s), .ite hx.padded hy.padded⟩

theorem get_bind {g : YkpState → Proc YkpState Unit} (hg : ∀ s, Checked (g s)) :
    Checked (Proc.get >>= g) :=
  ⟨fun s => .get_bind ((hg s).spares s), .get_bind fun s => (hg s).padded⟩

/-- What stands in front of the check leaves the configuration as it is. -/
theorem bind {α : Type} {x : Proc YkpState α} {g : α → Proc YkpState Unit}
    (hx : Moves (fun s s' => s'.cfg = s.cfg) x) (hg : ∀ a, Checked (g a)) : Checked (x >>= g) := by
  refine ⟨fun s => .bind SameConfig.trans (fun s => .of_cfg (hx s)) fun a t => (hg a).spares t, ?_⟩
  have hkept : Moves KeepsPadded x := fun s h => by
    rw [hx s]
    exact h
  exact .bind (fun _ _ _ h k hpadded => k (h hpadded)) hkept fun a => (hg a).padded

end Checked

theorem checked_setCharfield (capability : YkpConfig → Bool)
    {f : List UInt8 → YkConfig → YkConfig} {input : List UInt8}
    (hf : ∀ c, FixedPadded c → FixedPadded (f input c)) :
    Checked (ykpSetCharfield capability f input) :=
  .get_bind fun _ => .ite (.store hf) (.error _)

theorem fixedPadded_charfield (fixed : List UInt8) (c : YkConfig) : FixedPadded { c with
    fixed := charfield _ fixed
    fixedSize := UInt8.ofNat (min fixed.length maxFixedSize) } := by
  have hsize : (UInt8.ofNat (min fixed.length maxFixedSize)).toNat
      = min fixed.length maxFixedSize := by
    rw [UInt8.toNat_ofNat']
    exact Nat.mod_eq_of_lt (by rw [maxFixedSize]; omega)
  refine ⟨?_, fun b hb => ?_⟩
  · show (UInt8.ofNat (min fixed.length maxFixedSize)).toNat ≤ maxFixedSize
    rw [hsize]
    exact Nat.min_le_right _ _
  change b ∈ (charfield maxFixedSize fixed).toList.drop
    (UInt8.ofNat (min fixed.length maxFixedSize)).toNat at hb
  rw [hsize] at hb
  rcases Nat.le_total fixed.length maxFixedSize with hle | hle
  · rw [Nat.min_eq_left hle, toList_charfield_of_le hle, List.drop_left] at hb
    exact List.eq_of_mem_replicate hb
  · rw [Nat.min_eq_right hle, List.drop_of_length_le (Nat.le_of_eq (Vector.length_toList))] at hb
    exact absurd hb List.not_mem_nil

theorem checked_setOathImf (imf : ℕ) : Checked (ykpSetOathImf imf) :=
  .get_bind fun _ => .ite (.error _) <| .ite (.error _) <| .ite (.error _) <|
    .store fun _ h => h.congr rfl rfl

theorem checked_setFlag (field : FlagField) (flag : UInt8) (capability : YkpConfig → Bool)
    (state : Bool) : Checked (ykpSetFlag field flag capability state) :=
  .get_bind fun _ => .ite
    (.store fun _ h => h.congr (by cases field <;> rfl) (by cases field <;> rfl)) (.error _)

theorem checked_configureCommand (command : UInt8) : Checked (ykpConfigureCommand command) := by
  refine .get_bind fun s => ?_
  rcases commandError s.cfg command with _ | e
  · exact .modify fun _ => id
  · exact .error e

theorem checked_keyFromHex (D : HexDecoder) (digits : ℕ) {f : List UInt8 → YkConfig → YkConfig}
    (hf : ∀ bin c, FixedPadded c → FixedPadded (f bin c)) (hexkey : List Char) :
    Checked (ykpKeyFromHex D.yubikeyHexP D.yubikeyHexDecode digits f hexkey) :=
  .ite (.error _) <| .ite (.error _) <| .store (hf _)

/-! ## The key of a passphrase -/

theorem moves_readSalt (source : ℕ → List UInt8) : ∀ (fuel i : ℕ) (salt : List UInt8),
    Moves (fun s s' : YkpState => s'.cfg = s.cfg) (readSalt source fuel i salt)
  | 0, _, _ => fun _ => rfl
  | fuel + 1, i, salt => by
    rw [readSalt]
    exact .ite (moves_readSalt source fuel (i + 1) _) fun _ => rfl

theorem moves_passphraseSalt (P : PassphraseEnv) (fuel : ℕ) (salt : Option (List UInt8)) :
    Moves (fun s s' : YkpState => s'.cfg = s.cfg) (passphraseSalt P fuel salt) := by
  rcases salt with _ | salt
  · unfold passphraseSalt
    dsimp only
    split
    · exact moves_readSalt _ fuel 0 []
    · exact fun _ => rfl
  · exact fun _ => rfl

theorem moves_pbkdf2Buffer (x : Proc DkState Unit) (buf : List UInt8) :
    Moves (fun s s' : YkpState => s'.cfg = s.cfg) (pbkdf2Buffer x buf) := by
  intro s
  unfold pbkdf2Buffer
  rcases x ⟨buf, []⟩ with ⟨_ | _ | _ | _, d⟩ <;> rfl

theorem checked_aesKeyFromPassphrase (P : PassphraseEnv) (fuel : ℕ) (passphrase : List UInt8)
    (salt : Option (List UInt8)) :
    Checked (ykpAesKeyFromPassphrase P fuel passphrase salt) := by
  refine .get_bind fun _ => .bind (moves_passphraseSalt P fuel salt) fun salt => ?_
  refine .ite (.error _) (.bind (moves_pbkdf2Buffer _ _) fun _ => ?_)
  exact .store fun _ h => h.congr rfl rfl

/-- Only `ykpConfigureFor` stores before it looks. -/
theorem YkpCall.checked (D : HexDecoder) {c : YkpCall} (hc : ∀ n st, c ≠ .configureFor n st) :
    Checked (c.run D) := by
  cases c with
  | clearConfig =>
    rw [YkpCall.run, ykpClearConfig]
    exact .store fun _ h => h.congr rfl rfl
  | configureVersion st => exact .modify fun _ => id
  | configureCommand command => exact checked_configureCommand command
  | configureFor n st => exact absurd rfl (hc n st)
  | setAccessCode accessCode =>
    rw [YkpCall.run, ykpSetAccessCode]
    exact checked_setCharfield vcheckAll fun _ h => h.congr rfl rfl
  | setFixed fixed =>
    rw [YkpCall.run, ykpSetFixed]
    exact checked_setCharfield vcheckAll fun c _ => fixedPadded_charfield fixed c
  | setUid uid =>
    rw [YkpCall.run, ykpSetUid]
    exact checked_setCharfield vcheckAll fun _ h => h.congr rfl rfl
  | setOathImf imf => exact checked_setOathImf imf
  | setFlag field p hp state =>
    rw [YkpCall.run, setter_eq field p hp]
    exact checked_setFlag field _ _ state
  | aesKeyFromHex hexkey =>
    rw [YkpCall.run, ykpAesKeyFromHex]
    refine checked_keyFromHex D 32 ?_ hexkey
    exact fun _ _ h => h.congr rfl rfl
  | hmacKeyFromHex hexkey =>
    rw [YkpCall.run, ykpHmacKeyFromHex]
    refine checked_keyFromHex D 40 ?_ hexkey
    exact fun _ _ h => h.congr rfl rfl
  | aesKeyFromRaw key =>
    rw [YkpCall.run, ykpAesKeyFromRaw]
    exact .store fun _ h => h.congr rfl rfl
  | hmacKeyFromRaw key =>
    rw [YkpCall.run, ykpHmacKeyFromRaw]
    exact .store fun _ h => h.congr rfl rfl
  | aesKeyFromPassphrase P fuel passphrase salt =>
    exact checked_aesKeyFromPassphrase P fuel passphrase salt
  | setAcccodeType type => exact .modify fun _ => id

/-! ## A slot for a status -/

/-- Firmware 1 and the beta of the NEO have one slot. -/
def YkStatus.HasSlotTwo (st : YkStatus) : Prop :=
  2 ≤ st.versionMajor ∧ ¬ (st.versionMajor = 2 ∧ st.versionMinor = 1 ∧ 4 ≤ st.versionBuild)

theorem commandError_slotConfig2 {cfg : YkpConfig} {st : YkStatus}
    (hversion : cfg.version = (st.versionMajor, st.versionMinor, st.versionBuild)) :
    commandError cfg slotConfig2 = none ↔ st.HasSlotTwo := by
  obtain ⟨hmajor, hminor, hbuild⟩ : cfg.ykMajorVersion = st.versionMajor ∧
      cfg.ykMinorVersion = st.versionMinor ∧ cfg.ykBuildVersion = st.versionBuild := by
    simpa only [YkpConfig.version, Prod.mk.injEq] using hversion
  rw [commandError, if_neg (by decide), if_pos rfl, hmajor, hminor, hbuild, YkStatus.HasSlotTwo]
  split_ifs with h1 h2
  · exact iff_of_false id fun h => h.2 h2
  · exact iff_of_true rfl ⟨h1, h2⟩
  · exact iff_of_false id fun h => h1 h.1

/-- What `ykpConfigureFor` has stored when it comes to the check of slot 2. -/
def YkpState.forSlotTwo (s : YkpState) (st : YkStatus) : YkpState :=
  { s with
    cfg.ykMajorVersion := st.versionMajor
    cfg.ykMinorVersion := st.versionMinor
    cfg.ykBuildVersion := st.versionBuild
    cfg.ykcoreConfig := defaultConfig2 }

theorem ykpConfigureFor_two (st : YkStatus) (s : YkpState) :
    ykpConfigureFor 2 st s = ykpConfigureCommand slotConfig2 (s.forSlotTwo st) := rfl

theorem ykpConfigureCommand_fail {command : UInt8} {s : YkpState} :
    (∃ s', ykpConfigureCommand command s = (.fail, s')) ↔ commandError s.cfg command ≠ none := by
  rw [ykpConfigureCommand, Proc.get_bind_run]
  rcases commandError s.cfg command with _ | e <;> simp [ykpError]

theorem spares_configureFor_two (st : YkStatus) (s : YkpState) :
    Spares SameConfig (ykpConfigureFor 2 st) s
      ↔ st.HasSlotTwo ∨ s.cfg.ykcoreConfig = defaultConfig2 := by
  have hchecked : commandError (s.forSlotTwo st).cfg slotConfig2 = none ↔ st.HasSlotTwo :=
    commandError_slotConfig2 rfl
  constructor
  · intro h
    by_cases hslot : st.HasSlotTwo
    · exact .inl hslot
    obtain ⟨s', hrun⟩ := ykpConfigureCommand_fail.2 fun hnone => hslot (hchecked.1 hnone)
    -- the refused command has not touched the defaults
    have hdefault := ((checked_configureCommand slotConfig2).spares _ s' hrun).ykcoreConfig
    exact .inr ((h s' ((ykpConfigureFor_two st s).trans hrun)).ykcoreConfig.symm.trans hdefault)
  · rintro (hslot | hdefault) s' hrun
    · rw [ykpConfigureFor_two] at hrun
      exact absurd (hchecked.2 hslot) (ykpConfigureCommand_fail.1 ⟨s', hrun⟩)
    · have hsame := (checked_configureCommand slotConfig2).spares _ s' hrun
      exact ⟨hsame.command, hsame.ykcoreConfig.trans hdefault.symm⟩

theorem spares_configureFor_of_ne {confnum : Int32} (h2 : confnum ≠ 2) (st : YkStatus)
    (s : YkpState) : Spares SameConfig (ykpConfigureFor confnum st) s := by
  by_cases h1 : confnum = 1
  · -- the first slot is refused of no key
    subst h1
    exact .of_ok rfl
  · have hrun : ykpConfigureFor confnum st s
        = ykpError .EINVCONFNUM (ykpConfigureVersion st s).2 := by
      rw [ykpConfigureFor, if_neg h1, if_neg h2]
      rfl
    intro s' h
    rw [hrun] at h
    have hsame := (Checked.error .EINVCONFNUM).spares _ s' h
    exact ⟨hsame.command, hsame.ykcoreConfig⟩

/-! ## All calls -/

/-- The defaults of slot 2 are stored over another configuration, and slot 2 is refused. -/
def YkpCall.Overwrites (c : YkpCall) (cfg : YkpConfig) : Prop :=
  ∃ st, c = .configureFor 2 st ∧ ¬ st.HasSlotTwo ∧ cfg.ykcoreConfig ≠ defaultConfig2

/-- A call that fails changes neither the command nor a byte of what is sent, unless it is for slot
2 of a key that has one slot. -/
theorem failed_call_changes_nothing_iff (D : HexDecoder) (c : YkpCall) (s : YkpState) :
    Spares SameConfig (c.run D) s ↔ ¬ c.Overwrites s.cfg := by
  by_cases hfor : ∃ n st, c = .configureFor n st
  swap
  · exact iff_of_true ((YkpCall.checked D fun n st h => hfor ⟨n, st, h⟩).spares s)
      fun ⟨st, h, _⟩ => hfor ⟨2, st, h⟩
  obtain ⟨n, st, rfl⟩ := hfor
  by_cases h2 : n = 2
  · subst h2
    refine (spares_configureFor_two st s).trans ?_
    simp only [YkpCall.Overwrites, YkpCall.configureFor.injEq, true_and, exists_eq_left',
      not_and_or, not_not, ne_eq]
  · refine iff_of_true (spares_configureFor_of_ne h2 st s) ?_
    rintro ⟨st', h, -⟩
    exact h2 (YkpCall.configureFor.inj h).1

/-- The hexadecimal of libyubikey. -/
def hexDecoder : HexDecoder :=
  ⟨ScriptedHost.accepts ScriptedHost.hexAlphabet, ScriptedHost.decode ScriptedHost.hexAlphabet⟩

/-- Slot 2 of a key 1.3.0 is refused, and what was to be sent to slot 1 is gone. -/
theorem failed_call_overwrites :
    let s : YkpState := ⟨ykpCreateConfig ykpAcccodeNone, none⟩
    ∃ s', (YkpCall.configureFor 2 ⟨1, 3, 0, 0, 0⟩).run hexDecoder s = (.fail, s') ∧
      s'.ykpErrno = some .EOLDYUBIKEY ∧ s'.cfg.ykcoreConfig ≠ s.cfg.ykcoreConfig ∧
      s.cfg.ykcoreConfig.cfgFlags = 0 ∧ s'.cfg.ykcoreConfig.cfgFlags = 0xf0 :=
  ⟨_, rfl, rfl, by decide, rfl, by decide⟩

/-! ## The fixed part -/

/-- For a slot, a configuration starts out without a fixed part, also where the slot is refused. -/
theorem padded_configureFor (n : Int32) (st : YkStatus) :
    Moves KeepsPadded (ykpConfigureFor n st) := by
  intro s h
  by_cases h1 : n = 1
  · subst h1
    exact fixedPadded_of_zero rfl rfl
  by_cases h2 : n = 2
  · subst h2
    rw [ykpConfigureFor_two]
    exact (checked_configureCommand slotConfig2).padded _ (fixedPadded_of_zero rfl rfl)
  · rw [ykpConfigureFor, if_neg h1, if_neg h2]
    exact h

theorem YkpCall.padded (D : HexDecoder) (c : YkpCall) : Moves KeepsPadded (c.run D) := by
  by_cases hfor : ∃ n st, c = .configureFor n st
  · obtain ⟨n, st, rfl⟩ := hfor
    exact padded_configureFor n st
  · exact (YkpCall.checked D fun n st h => hfor ⟨n, st, h⟩).padded

theorem FixedPadded.seeded {cfg : YkpConfig} (h : FixedPadded cfg.ykcoreConfig) (L : JsonC)
    (mode : UInt8) (options : Json) : FixedPadded (cfg.seeded L mode options).ykcoreConfig := by
  unfold YkpConfig.seeded
  split_ifs
  · exact h.congr rfl rfl
  · exact h

theorem fixedPadded_importConfig (L : JsonC) (buf : List Char) (format : Int32) {s : YkpState}
    (h : FixedPadded s.cfg.ykcoreConfig) (hret : (ykpImportConfig L buf format).Returns s) :
    FixedPadded (ykpImportConfig L buf format s).2.cfg.ykcoreConfig := by
  unfold ykpImportConfig at hret ⊢
  split_ifs at hret ⊢ with hycfg
  · unfold ykpJsonImportCfg at hret ⊢
    rcases hread : CString.read buf with _ | text
    · exact h
    rw [hread] at hret
    dsimp only at hret ⊢
    have hends := importDocument_ends L (L.tokenerParse text) s
    rcases hrun : importDocument L (L.tokenerParse text) s with ⟨r, t⟩
    rw [hrun] at hends
    cases hends with
    | refused => exact h
    | noMode => exact absurd (congrArg Prod.fst hrun) hret.1
    | random hp hc hm hr hf => exact h.congr rfl rfl
    | @imported _ _ options command rawMode _ _ hp hc hm hr hf =>
      have hcommand : FixedPadded (s.cfg.withCommand command).ykcoreConfig := h.congr rfl rfl
      exact (hcommand.seeded L (modeOf rawMode) options).congr rfl rfl
  · exact h
  · exact h

/-- No configuration that a program comes to holds bytes behind its fixed part. -/
theorem Reachable.fixedPadded {D : HexDecoder} {cfg : YkpConfig} (h : Reachable D cfg) :
    FixedPadded cfg.ykcoreConfig := by
  induction h with
  | alloc => exact fixedPadded_of_zero rfl rfl
  | create ykpAcccodeType => exact fixedPadded_of_zero rfl rfl
  | call _ c ykpErrno _ ih => exact c.padded D _ ih
  | importConfig _ L buf format ykpErrno hret ih =>
    exact fixedPadded_importConfig L buf format ih hret

end YkPers
