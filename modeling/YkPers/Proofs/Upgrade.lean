import YkPers.Proofs.AnyKey
import YkPers.ScriptedHost

/-!
# What a newer key may have lost

Of what `ykpers.c` asks the version for, a later version has all that an earlier one has, but for
six things: the NEO beta, which counts as 2.1.4 and later, has no second slot and at first no static
passwords; the first tickets and the trigger of version 1 are gone with version 2; 3.0 does not
invert its light; 4 has no NDEF, nor have those behind the NEO beta before 3; a second NDEF is there
in 3 and 5 only; and from 6 on there is no device configuration. Between versions that keep these,
every command line that the earlier key takes the later one takes as well (`argsToConfig_upgrade`).
-/

namespace YkPers

open ScriptedHost (env start)

/-- The versions of the NEO beta. -/
def Version.Neo (v : Version) : Prop := v.1 = 2 ∧ v.2.1 = 1 ∧ 4 ≤ v.2.2

instance (v : Version) : Decidable v.Neo := instDecidableAnd

/-- From the first version to the second, nothing that later versions may lack gets lost. -/
structure Upgrade (v v' : Version) : Prop where
  later : v.1 < v'.1 ∨ (v.1 = v'.1 ∧ (v.2.1 < v'.2.1 ∨ (v.2.1 = v'.2.1 ∧ v.2.2 ≤ v'.2.2)))
  neo : v'.Neo → v.Neo
  first : v.1 = 1 → v'.1 = 1
  ledInv : v.1 = 2 → 4 ≤ v.2.1 → ¬ (v'.1 = 3 ∧ v'.2.1 = 0)
  ndef : v.Neo ∨ v.1 = 3 → v'.Neo ∨ v'.1 = 3 ∨ 5 ≤ v'.1
  ndef2 : v.1 = 3 ∨ v.1 = 5 → v'.1 = 3 ∨ v'.1 = 5
  deviceConfig : 3 ≤ v.1 → v.1 ≤ 5 → v'.1 ≤ 5

section Upgrade

variable {v v' : Version} (h : Upgrade v v')

include h

theorem Upgrade.later_toNat : v.1.toNat < v'.1.toNat ∨ (v.1.toNat = v'.1.toNat ∧
    (v.2.1.toNat < v'.2.1.toNat ∨
      (v.2.1.toNat = v'.2.1.toNat ∧ v.2.2.toNat ≤ v'.2.2.toNat))) := by
  have hlater := h.later
  simpa only [UInt8.lt_iff_toNat_lt, UInt8.le_iff_toNat_le, ← UInt8.toNat_inj] using hlater

theorem Upgrade.ledInv_toNat : v.1.toNat = 2 → 4 ≤ v.2.1.toNat →
    ¬ (v'.1.toNat = 3 ∧ v'.2.1.toNat = 0) := by
  have hled := h.ledInv
  simpa only [UInt8.le_iff_toNat_le, ← UInt8.toNat_inj, UInt8.reduceToNat] using hled

end Upgrade

/-! ## The version checks as numbers -/

section Numbers

variable (c : YkpConfig)

theorem vcheckNoV1_iff : vcheckNoV1 c = true ↔ 1 < c.ykMajorVersion.toNat := by
  simp [vcheckNoV1, UInt8.lt_iff_toNat_lt]

theorem vcheckV21OrGreater_iff : vcheckV21OrGreater c = true ↔
    (c.ykMajorVersion.toNat = 2 ∧ (1 < c.ykMinorVersion.toNat
      ∨ (c.ykMinorVersion.toNat = 1 ∧ c.ykBuildVersion.toNat ≤ 3)))
      ∨ 2 < c.ykMajorVersion.toNat := by
  simp [vcheckV21OrGreater, UInt8.lt_iff_toNat_lt, UInt8.le_iff_toNat_le, ← UInt8.toNat_inj]
  omega

theorem vcheckV2OrGreater_iff (minor : UInt8) : vcheckV2OrGreater minor c = true ↔
    (c.ykMajorVersion.toNat = 2 ∧ minor.toNat ≤ c.ykMinorVersion.toNat)
      ∨ 2 < c.ykMajorVersion.toNat := by
  simp [vcheckV2OrGreater, UInt8.lt_iff_toNat_lt, UInt8.le_iff_toNat_le, ← UInt8.toNat_inj]

theorem vcheckNeo_iff : vcheckNeo c = true ↔ c.ykMajorVersion.toNat = 2
    ∧ c.ykMinorVersion.toNat = 1 ∧ 4 ≤ c.ykBuildVersion.toNat := by
  simp [vcheckNeo, UInt8.le_iff_toNat_le, ← UInt8.toNat_inj, and_assoc]

theorem vcheckNeo_iff_version : vcheckNeo c = true ↔ Version.Neo c.version := by
  simp [vcheckNeo, Version.Neo, YkpConfig.version, and_assoc]

theorem vcheckV1_iff : vcheckV1 c = true ↔ c.version.1 = 1 := decide_eq_true_iff

theorem capabilityHasLedInv_iff : capabilityHasLedInv c = true ↔
    ((c.ykMajorVersion.toNat = 2 ∧ 4 ≤ c.ykMinorVersion.toNat) ∨ 2 < c.ykMajorVersion.toNat)
      ∧ ¬ (c.ykMajorVersion.toNat = 3 ∧ c.ykMinorVersion.toNat = 0) := by
  rw [capabilityHasLedInv, Bool.and_eq_true, vcheckV24OrGreater, vcheckV2OrGreater_iff]
  simp only [vcheckV30, UInt8.reduceToNat, ← UInt8.toNat_inj, Bool.not_eq_true', ← Bool.not_eq_true,
    Bool.and_eq_true, decide_eq_true_eq]

theorem vcheckNeoBefore5_iff : vcheckNeoBefore5 c = true ↔ c.ykMajorVersion.toNat = 2
    ∧ c.ykMinorVersion.toNat = 1 ∧ c.ykBuildVersion.toNat = 4 := by
  rw [vcheckNeoBefore5, Bool.and_eq_true, vcheckNeo_iff, decide_eq_true_eq, UInt8.lt_iff_toNat_lt]
  simp only [UInt8.reduceToNat]
  omega

theorem vcheckNeoAfter6_iff : vcheckNeoAfter6 c = true ↔ c.ykMajorVersion.toNat = 2
    ∧ c.ykMinorVersion.toNat = 1 ∧ 6 < c.ykBuildVersion.toNat := by
  rw [vcheckNeoAfter6, Bool.and_eq_true, vcheckNeo_iff, decide_eq_true_eq, gt_iff_lt,
    UInt8.lt_iff_toNat_lt]
  simp only [UInt8.reduceToNat]
  omega

end Numbers

/-! ## Capabilities -/

/-- Who has a capability by the first version has it by the second. -/
def Lasts (v v' : Version) (f : YkpConfig → Bool) : Prop :=
  ∀ c : YkpConfig, c.version = v → f c = true → f (c.withVersion v') = true

section Lasts

variable {v v' : Version} (h : Upgrade v v')

include h

/-- The same, in numbers, for capabilities that look at nothing but the order of versions, the neo
beta and version 1. -/
theorem Upgrade.lasts {f : YkpConfig → Bool}
    (hf : ∀ c c' : YkpConfig, f c = true →
      (c.ykMajorVersion.toNat < c'.ykMajorVersion.toNat
        ∨ (c.ykMajorVersion.toNat = c'.ykMajorVersion.toNat
          ∧ (c.ykMinorVersion.toNat < c'.ykMinorVersion.toNat
            ∨ (c.ykMinorVersion.toNat = c'.ykMinorVersion.toNat
              ∧ c.ykBuildVersion.toNat ≤ c'.ykBuildVersion.toNat)))) →
      (vcheckNeo c' = true → vcheckNeo c = true) → (vcheckV1 c = true → vcheckV1 c' = true) →
      f c' = true) : Lasts v v' f := by
  rintro c rfl hc
  refine hf c (c.withVersion v') hc h.later_toNat ?_ ?_
  · rw [vcheckNeo_iff_version, vcheckNeo_iff_version]
    exact h.neo
  · rw [vcheckV1_iff, vcheckV1_iff]
    exact h.first

theorem lasts_v2OrGreater (minor : UInt8) : Lasts v v' (vcheckV2OrGreater minor) :=
  h.lasts fun c c' hc hlater _ _ => by
    rw [vcheckV2OrGreater_iff] at hc ⊢
    omega

theorem lasts_v1 : Lasts v v' vcheckV1 := h.lasts fun _ _ hc _ _ hfirst => hfirst hc

theorem lasts_static : Lasts v v' capabilityHasStatic :=
  h.lasts fun c c' hc hlater hneo _ => by
    simp only [capabilityHasStatic, vcheckAll, Bool.true_and, Bool.not_eq_true',
      ← Bool.not_eq_true, vcheckNeoBefore5_iff, vcheckNeo_iff] at hc hneo ⊢
    omega

theorem lasts_staticExtras : Lasts v v' capabilityHasStaticExtras :=
  h.lasts fun c c' hc hlater hneo _ => by
    simp only [capabilityHasStaticExtras, Bool.and_eq_true, Bool.not_eq_true', ← Bool.not_eq_true,
      vcheckNoV1_iff, vcheckNeoBefore5_iff, vcheckNeo_iff] at hc hneo ⊢
    omega

theorem lasts_slotTwo : Lasts v v' capabilityHasSlotTwo :=
  h.lasts fun c c' hc hlater hneo _ => by
    simp only [capabilityHasSlotTwo, Bool.and_eq_true, Bool.not_eq_true', ← Bool.not_eq_true,
      vcheckNoV1_iff, vcheckNeo_iff] at hc hneo ⊢
    omega

theorem lasts_oathImf : Lasts v v' capabilityHasOathImf :=
  h.lasts fun c c' hc hlater hneo _ => by
    simp only [capabilityHasOathImf, vcheckV22OrGreater, Bool.or_eq_true, vcheckV2OrGreater_iff,
      vcheckNeoAfter6_iff, UInt8.reduceToNat] at hc ⊢
    omega

theorem lasts_serialApi : Lasts v v' capabilityHasSerialApi :=
  h.lasts fun c c' hc hlater hneo _ => by
    simp only [capabilityHasSerialApi, vcheckV22OrGreater, Bool.or_eq_true, vcheckV2OrGreater_iff,
      vcheckNeo_iff, UInt8.reduceToNat] at hc ⊢
    omega

/-- The light of 3.0. -/
theorem lasts_ledInv : Lasts v v' capabilityHasLedInv := by
  have hled := h.ledInv_toNat
  rintro c rfl hc
  have hlater := h.later_toNat
  rw [capabilityHasLedInv_iff] at hc ⊢
  simp only [YkpConfig.version, YkpConfig.withVersion] at hled hlater hc ⊢
  omega

theorem lasts_oath : Lasts v v' capabilityHasOath :=
  h.lasts fun c c' hc hlater hneo _ => by
    simp only [capabilityHasOath, Bool.or_eq_true, vcheckV21OrGreater_iff, vcheckNeo_iff] at hc ⊢
    omega

/-- All capabilities of the tables are of these kinds. -/
theorem lasts_capability (field : FlagField) : ∀ p ∈ flagsMap field, Lasts v v' p.capability := by
  have hmods : Lasts v v' capabilityHasTicketMods := fun _ _ _ => rfl
  cases field <;>
    simp only [flagsMap, ticketFlagsMap, configFlagsMap, extendedFlagsMap, List.forall_mem_cons,
      List.not_mem_nil, false_implies, implies_true, and_true]
  · exact ⟨hmods, hmods, hmods, hmods, hmods, hmods, lasts_slotTwo h, lasts_oath h,
      lasts_v2OrGreater h 2⟩
  · exact ⟨lasts_v2OrGreater h 2, lasts_v2OrGreater h 2, lasts_v2OrGreater h 2,
      lasts_v2OrGreater h 2, lasts_oath h, lasts_oath h, lasts_oath h, lasts_oath h, hmods,
      lasts_v1 h, hmods, hmods, lasts_v1 h, lasts_static h, lasts_staticExtras h,
      lasts_staticExtras h, lasts_staticExtras h, lasts_staticExtras h⟩
  · exact ⟨lasts_v2OrGreater h 2, lasts_v2OrGreater h 2, lasts_serialApi h,
      lasts_v2OrGreater h 3, lasts_v2OrGreater h 3, lasts_v2OrGreater h 3, lasts_v2OrGreater h 3,
      lasts_ledInv h⟩

end Lasts

/-! ## Commands -/

section Commands

variable {v v' : Version} {c : YkpConfig} {command : UInt8}

theorem takes_slotConfig2 : commandError c slotConfig2 = none
    ↔ 2 ≤ c.ykMajorVersion.toNat ∧ ¬ vcheckNeo c = true := by
  have h1 : ¬ slotConfig2 = slotConfig := by decide
  rw [commandError, if_neg h1, if_pos rfl]
  split_ifs with hmajor hneo
  · exact iff_of_false (by simp) fun h => h.2 (by simpa [vcheckNeo, and_assoc] using hneo)
  · exact iff_of_true rfl
      ⟨UInt8.le_iff_toNat_le.1 hmajor, by simpa [vcheckNeo, and_assoc] using hneo⟩
  · exact iff_of_false (by simp) fun h => hmajor (UInt8.le_iff_toNat_le.2 h.1)

theorem takes_update (h : command = slotUpdate1 ∨ command = slotUpdate2 ∨ command = slotSwap) :
    commandError c command = none ↔ vcheckV23OrGreater c = true := by
  have h1 : ¬ command = slotConfig := by rcases h with rfl | rfl | rfl <;> decide
  have h2 : ¬ command = slotConfig2 := by rcases h with rfl | rfl | rfl <;> decide
  rw [commandError, if_neg h1, if_neg h2, if_pos h]
  split_ifs with hv
  · exact iff_of_true rfl (by simpa [vcheckV23OrGreater, vcheckV2OrGreater] using hv)
  · exact iff_of_false (by simp) (by simpa [vcheckV23OrGreater, vcheckV2OrGreater] using hv)

theorem takes_deviceConfig : commandError c slotDeviceConfig = none
    ↔ 3 ≤ c.ykMajorVersion ∧ c.ykMajorVersion ≤ 5 := by
  have hcase : commandError c slotDeviceConfig = if ¬ c.ykMajorVersion ≤ 5 then some .EYUBIKEYVER
      else if ¬ c.ykMajorVersion ≥ 3 then some .EYUBIKEYVER else none := rfl
  rw [hcase]
  split_ifs with h5 h3
  · exact iff_of_true rfl ⟨h3, h5⟩
  · exact iff_of_false (by simp) fun h => h3 h.1
  · exact iff_of_false (by simp) fun h => h5 h.2

theorem takes_ndef2 : commandError c slotNdef2 = none
    ↔ c.ykMajorVersion = 3 ∨ c.ykMajorVersion = 5 := by
  simp [commandError, slotNdef2, slotYk4SetDeviceInfo, slotScanMap, slotConfig, slotConfig2,
    slotUpdate1, slotUpdate2, slotSwap, slotDeviceConfig, or_iff_not_imp_left]

theorem takes_ndef : commandError c slotNdef = none
    ↔ Version.Neo c.version ∨ c.ykMajorVersion = 3 ∨ 5 ≤ c.ykMajorVersion := by
  simp [commandError, slotNdef, slotNdef2, slotYk4SetDeviceInfo, slotScanMap, slotConfig,
    slotConfig2, slotUpdate1, slotUpdate2, slotSwap, slotDeviceConfig, Version.Neo,
    YkpConfig.version, or_iff_not_imp_left]

theorem takes_scanMap : commandError c slotScanMap = none ↔ 3 ≤ c.ykMajorVersion.toNat := by
  simp [commandError, slotScanMap, slotConfig, slotConfig2, slotUpdate1, slotUpdate2, slotSwap,
    slotDeviceConfig, UInt8.le_iff_toNat_le]

theorem takes_setDeviceInfo :
    commandError c slotYk4SetDeviceInfo = none ↔ 5 ≤ c.ykMajorVersion.toNat := by
  simp [commandError, slotYk4SetDeviceInfo, slotScanMap, slotConfig, slotConfig2, slotUpdate1,
    slotUpdate2, slotSwap, slotDeviceConfig, UInt8.le_iff_toNat_le]

/-- Command by command, in the order of the `switch`. -/
theorem Upgrade.takes (h : Upgrade v v') (hv : c.version = v)
    (hc : commandError c command = none) : commandError (c.withVersion v') command = none := by
  subst hv
  have hlater := h.later_toNat
  simp only [YkpConfig.version] at hlater
  by_cases h1 : command = slotConfig
  · rw [commandError, if_pos h1]
  by_cases h2 : command = slotConfig2
  · rw [h2, takes_slotConfig2, vcheckNeo_iff_version] at hc ⊢
    exact ⟨by simp only [YkpConfig.withVersion]; omega, fun hn => hc.2 (h.neo hn)⟩
  by_cases h3 : command = slotUpdate1 ∨ command = slotUpdate2 ∨ command = slotSwap
  · rw [takes_update h3] at hc ⊢
    exact lasts_v2OrGreater h 3 c rfl hc
  by_cases h4 : command = slotDeviceConfig
  · rw [h4, takes_deviceConfig] at hc ⊢
    refine ⟨?_, h.deviceConfig hc.1 hc.2⟩
    rw [UInt8.le_iff_toNat_le] at hc ⊢
    exact hc.1.trans (by simp only [YkpConfig.withVersion]; omega)
  by_cases h5 : command = slotScanMap
  · rw [h5, takes_scanMap] at hc ⊢
    simp only [YkpConfig.withVersion]
    omega
  by_cases h6 : command = slotYk4SetDeviceInfo
  · rw [h6, takes_setDeviceInfo] at hc ⊢
    simp only [YkpConfig.withVersion]
    omega
  by_cases h7 : command = slotNdef2
  · rw [h7, takes_ndef2] at hc ⊢
    exact h.ndef2 hc
  by_cases h8 : command = slotNdef
  · rw [h8, takes_ndef] at hc ⊢
    rcases hc with hc | hc | hc
    · exact h.ndef (.inl hc)
    · exact h.ndef (.inr hc)
    · refine .inr (.inr ?_)
      rw [UInt8.le_iff_toNat_le] at hc ⊢
      exact hc.trans (by simp only [YkpConfig.withVersion]; omega)
  · rw [commandError, if_neg h1, if_neg h2, if_neg h3, if_neg h4, if_neg h5, if_neg h6, if_neg h7,
      if_neg h8] at hc
    cases hc

end Commands

theorem Upgrade.covers {v v' : Version} (h : Upgrade v v') : Covers v v' where
  capability c hv field p hp := lasts_capability h field p hp c hv
  oathImf c hv := lasts_oathImf h c hv
  command _ hv _ := h.takes hv

/-- Over an upgrade, what the earlier key takes the later one takes, and it gets the same
configuration; only where the earlier one is refused for its version, the later one may not be. -/
theorem argsToConfig_upgrade (E : ArgsEnv) {st : YkStatus} (h : Upgrade E.st.version st.version)
    (fuel : ℕ) (s : ArgsState) :
    let r := argsToConfig E fuel s
    argsToConfig { E with st := st } fuel s = (r.1, r.2.withVersion st.version)
      ∨ (r.1 = .fail ∧ r.2.ykp.Refused) := by
  intro r
  have hr : r = argsBehindVersion E fuel ((declareLocals s).2.withVersion E.st.version) :=
    argsToConfig_run E E.st fuel s
  rw [hr, argsToConfig_run]
  obtain ⟨h1, -, h2⟩ | hrefused | ⟨-, hno, -⟩ := agree_behindVersion (P := False) E (.inr h.covers)
    fuel ((declareLocals s).2.withVersion E.st.version) _ ⟨rfl, rfl⟩
  · exact .inl (Prod.ext h1.symm h2)
  · exact .inr hrefused
  · exact hno.elim

theorem argsToConfig_upgrade_24 :
    let s := start ["ykpersonalize", "-2", "-ofast-trig"]
    let r := argsToConfig (env 2 3 1) 10 s
    argsToConfig (env 2 4 2) 10 s = (r.1, r.2.withVersion (env 2 4 2).st.version)
      ∨ (r.1 = .fail ∧ r.2.ykp.Refused) :=
  argsToConfig_upgrade (env 2 3 1) ⟨by decide, by decide, by decide,
    by decide, by decide, by decide, by decide⟩ 10 (start ["ykpersonalize", "-2", "-ofast-trig"])

end YkPers
