import YkPers.Proofs.Consent
import YkPers.Proofs.ImportConfig

/-!
# What an update carries

`args_to_config` checks the flags of an update against the masks, and none of the steps behind it
but the import gets past them. An import is checked no more: an update carries flags outside of the
masks if and only if the document it imports asks for some (`update_flags_iff`).
-/

namespace YkPers

open Proc (attempt)

/-- A command that updates a slot. -/
def IsUpdate (command : UInt8) : Prop := command = slotUpdate1 ∨ command = slotUpdate2

instance : DecidablePred IsUpdate := fun _ => inferInstanceAs (Decidable (_ ∨ _))

def updateMask : FlagField → UInt8
  | .tkt => tktflagUpdateMask
  | .cfg => cfgflagUpdateMask
  | .ext => extflagUpdateMask

/-- The flags are inside of the masks. -/
def Masked (f : FlagField → UInt8) : Prop := ∀ field, f field &&& updateMask field = f field

/-! ## The command line -/

section Args

variable {E : ArgsEnv} {s s' : ArgsState}

theorem updated_of_command {ks : List Kind} :
    IsUpdate (plan ks).command → (plan ks).updated = true := by
  have hndef : ∀ c, ¬ IsUpdate (ndefCommand c) := fun c => by
    unfold ndefCommand IsUpdate
    split_ifs <;> decide
  induction ks using List.reverseRecOn with
  | nil => exact fun h => absurd h (by decide)
  | append_singleton ks k ih =>
    rw [plan_concat]
    intro h
    cases k with
    | update => simp [Plan.next]
    | slot1 =>
      rcases hup : (plan ks).updated with _ | _
      · have hc : ((plan ks).next .slot1).command = slotConfig := by
          simp [Plan.next, Kind.command, hup]
        exact absurd (hc ▸ h) (by decide : ¬ IsUpdate slotConfig)
      · simp [Plan.next, hup]
    | slot2 =>
      rcases hup : (plan ks).updated with _ | _
      · have hc : ((plan ks).next .slot2).command = slotConfig2 := by
          simp [Plan.next, Kind.command, hup]
        exact absurd (hc ▸ h) (by decide : ¬ IsUpdate slotConfig2)
      · simp [Plan.next, hup]
    | ndefRequest => exact absurd h (hndef _)
    | swap => exact absurd h (by decide : ¬ IsUpdate slotSwap)
    | usbMode => exact absurd h (by decide : ¬ IsUpdate slotDeviceConfig)
    | scanMap => exact absurd h (by decide : ¬ IsUpdate slotScanMap)
    | scanReset => exact absurd h (by decide : ¬ IsUpdate slotScanMap)
    | deviceInfo => exact absurd h (by decide : ¬ IsUpdate slotYk4SetDeviceInfo)
    | zap => simp [Plan.next, ih h]
    | option => simp [Plan.next, ih h]
    | other => simp [Plan.next, ih h]

/-- A command that updates a slot is one that the firmware has. -/
def UpdateKnown (s : YkpState) : Prop :=
  IsUpdate s.cfg.command → capabilityHasUpdate s.cfg = true

theorem updateKnown_loopFrame : LoopFrame (fun s s' => UpdateKnown s → UpdateKnown s')
    fun s s' => UpdateKnown s.ykp → UpdateKnown s'.ykp where
  onYkp := {
    trans := fun _ _ _ h k hs => k (h hs)
    same := fun a b h hs hb => by
      have hcap := capability_congr h.version .ext extendedFlagsMap[5] (List.getElem_mem _)
      rw [IsUpdate, h.command] at hb
      exact hcap.trans (hs hb) }
  trans _ _ _ h k hs := k (h hs)
  same _ _ h hs := by rwa [h.ykp]
  ykp _ _ h := h
  flag _ _ _ _ _ _ hs := hs
  command s c hc _ hu := by
    have hversion : ((s.cfg.ykMajorVersion = 2 ∧ s.cfg.ykMinorVersion ≥ 3) ∨
        s.cfg.ykMajorVersion > 2) := by
      by_contra hn
      rcases hu with rfl | rfl <;>
        simp [commandError, hn, slotConfig, slotConfig2, slotUpdate1, slotUpdate2] at hc
    simpa [capabilityHasUpdate, vcheckV23OrGreater, vcheckV2OrGreater] using hversion
  clear _ hs := hs
  any _ _ h _ _ _ hs := by rwa [h]

theorem sameFlags_frame : Frame SameFlags fun s s' => SameFlags s.ykp s'.ykp where
  onYkp := sameFlags_ykpFrame
  trans _ _ _ h k := h.trans k
  same _ _ h := .of_cfg (congrArg YkpState.cfg h.ykp)
  ykp _ _ h := h

theorem checkUpdate_ok (h : checkUpdate s = (.ok ⟨⟩, s')) (hu : s.updateSeen = true) :
    Masked s.ykp.cfg.ykcoreConfig.flags := by
  unfold checkUpdate at h
  rw [Proc.get_bind_run] at h
  rw [if_pos hu] at h
  obtain ⟨htkt, h⟩ := rejectIf_bind_ok h
  obtain ⟨hcfg, h⟩ := rejectIf_bind_ok h
  have hext := (rejectIf_ok h).1
  intro field
  cases field
  · exact not_not.1 (of_decide_eq_false htkt)
  · exact not_not.1 (of_decide_eq_false hcfg)
  · exact not_not.1 (of_decide_eq_false hext)

/-- An accepted command line that updates a slot asks for no other flags than an update may
carry. -/
theorem argsToConfig_masked {fuel : ℕ} {argv : List (List Char)} {stdin : List Char}
    {scanCodes deviceInfo : List UInt8}
    (h : argsToConfig E fuel (.fresh argv stdin scanCodes deviceInfo) = (.ok ⟨⟩, s'))
    (hu : IsUpdate s'.ykp.cfg.command) :
    Masked s'.ykp.cfg.ykcoreConfig.flags ∧ capabilityHasUpdate s'.ykp.cfg = true := by
  have htracks := argsToConfig_ok h
  obtain ⟨t, u, v, ht, hcheck, hmask, hkey⟩ := argsToConfig_parts h
  have hseen : u.updateSeen = true := by
    have hq := quiet.steps.checkAction.of_eq_ok hcheck
    have hq' := frame_behindLoop quiet hcheck hmask hkey
    have hs : s'.seen .update = true := by
      rw [htracks.seen, ← plan_updated]
      exact updated_of_command (htracks.command ▸ hu)
    rw [hq'.seen, ← hq.seen] at hs
    exact hs
  have hflags : SameFlags u.ykp s'.ykp := (sameFlags_frame.steps.checkUpdate.of_eq_ok hmask).trans
    ((sameFlags_frame.keySection E fuel).of_eq_ok hkey)
  have hknown : UpdateKnown s'.ykp := by
    refine frame_behindLoop updateKnown_loopFrame.toFrame hcheck hmask hkey ?_
    refine (updateKnown_loopFrame.optionLoop (fun o ho s hs => ?_) fuel).of_eq_ok ht ?_
    · rwa [gates_ykp ho]
    · exact fun h => absurd h (by decide : ¬ IsUpdate 0)
  refine ⟨fun field => ?_, hknown hu⟩
  rw [hflags.flags]
  exact checkUpdate_ok hmask hseen field

end Args

/-! ## Documents -/

section Document

variable {L : JsonC} {mode : UInt8} {options : Json} {c : YkpConfig} {f : FlagField → UInt8}

/-- The options that an update may not set, of a document for a Yubico OTP. -/
def fixedOptions : List String := ["protectSecond", "sendRef", "shortTicket"]

/-- The option is literally true. -/
def IsTrue (L : JsonC) (options : Json) (text : String) : Prop :=
  ∃ j, options.get text = some j ∧ j.isBoolean = true ∧ L.getBoolean j = true

/-- A document that an update may carry: one for a Yubico OTP that asks for none of the fixed
options. -/
def UpdatableDocument (L : JsonC) (jobj : Json) : Prop :=
  ∀ yprod jmode options rawMode, Parts jobj yprod jmode options →
    L.getString jmode = some rawMode →
      modeOf rawMode = modeOtpYubico ∧ ∀ text ∈ fixedOptions, ¬ IsTrue L options text

/-- The firmware of an update has the modes, and the flags of the fixed options. -/
theorem capabilities_of_update (h : capabilityHasUpdate c = true) :
    capabilityHasOath c = true ∧ capabilityHasChalResp c = true ∧ capabilityHasStatic c = true ∧
      capabilityHasSlotTwo c = true ∧ capabilityHasStaticExtras c = true := by
  have hv : (c.ykMajorVersion = 2 ∧ c.ykMinorVersion > 1 ∧ c.ykMinorVersion ≥ 2) ∨
      c.ykMajorVersion > 2 := by
    simp only [capabilityHasUpdate, vcheckV23OrGreater, vcheckV2OrGreater, Bool.or_eq_true,
      Bool.and_eq_true, decide_eq_true_eq] at h
    rcases h with ⟨hmajor, hminor⟩ | hmajor
    · exact .inl ⟨hmajor, UInt8.lt_of_lt_of_le (by decide) hminor,
        UInt8.le_trans (by decide) hminor⟩
    · exact .inr hmajor
  have hneo : vcheckNeo c = false := by
    rcases hv with ⟨-, hminor, -⟩ | hmajor
    · simp [vcheckNeo, (UInt8.ne_of_lt hminor).symm]
    · simp [vcheckNeo, (UInt8.ne_of_lt hmajor).symm]
  have hv1 : vcheckNoV1 c = true := by
    rcases hv with ⟨hmajor, -⟩ | hmajor
    · simp [vcheckNoV1, hmajor]
    · exact decide_eq_true (UInt8.lt_trans (by decide) hmajor)
  have hv22 : vcheckV22OrGreater c = true := by
    rcases hv with ⟨hmajor, -, hminor⟩ | hmajor <;>
      simp [vcheckV22OrGreater, vcheckV2OrGreater, *]
  have hv21 : vcheckV21OrGreater c = true := by
    rcases hv with ⟨hmajor, hminor, -⟩ | hmajor <;> simp [vcheckV21OrGreater, *]
  simp [capabilityHasOath, capabilityHasChalResp, capabilityHasStatic, capabilityHasSlotTwo,
    capabilityHasStaticExtras, vcheckAll, vcheckNeoBefore5, hneo, hv1, hv22, hv21]

theorem masked_iff_wanted (hsets : Sets L mode options c f) : Masked f ↔
    ∀ field, ∀ p ∈ flagsMap field, Wanted L mode options field p → p.capability c = true →
      p.flag &&& updateMask field = p.flag := by
  refine forall_congr' fun field => ?_
  have hmask : ∀ x, x &&& updateMask field = x ↔ ∀ i, bit x i → bit (updateMask field) i :=
    fun x => by rw [UInt8.and_comm, and_eq_iff]
  rw [hmask]
  constructor
  · intro h p hp hw hc
    exact (hmask _).2 fun i hi => h i ((hsets field i).2 ⟨p, hp, hw, hc, hi⟩)
  · intro h i hi
    obtain ⟨p, hp, hw, hc, hb⟩ := (hsets field i).1 hi
    exact (hmask _).1 (h p hp hw hc) i hb

/-- What a Yubico OTP asks for is inside of the masks, but for the fixed options. -/
theorem inside_or_fixed (field : FlagField) : ∀ p ∈ flagsMap field,
    p.isFor modeOtpYubico = true → p.flag &&& updateMask field = p.flag ∨
      ∀ text ∈ p.jsonText, text ∈ fixedOptions := by
  cases field <;> decide

theorem mode_outside (L : JsonC) (options : Json) (hmode : mode ∈ modesMap.map Prod.fst)
    (hne : mode ≠ modeOtpYubico) (hupdate : capabilityHasUpdate c = true) :
    ∃ field, ∃ p ∈ flagsMap field, ByMode L mode options field p ∧ p.capability c = true ∧
      p.flag &&& updateMask field ≠ p.flag := by
  obtain ⟨hoath, hresp, hstatic, -, -⟩ := capabilities_of_update hupdate
  rcases mode_cases hmode with rfl | rfl | rfl | rfl | rfl
  · exact ⟨.tkt, ticketFlagsMap[7], List.getElem_mem _, .inl (by decide), hoath, by decide⟩
  · exact ⟨.tkt, ticketFlagsMap[8], List.getElem_mem _, .inl (by decide), hresp, by decide⟩
  · exact ⟨.cfg, configFlagsMap[13], List.getElem_mem _, .inl (by decide), hstatic, by decide⟩
  · exact ⟨.tkt, ticketFlagsMap[8], List.getElem_mem _, .inl (by decide), hresp, by decide⟩
  · exact absurd rfl hne

theorem fixed_outside (hupdate : capabilityHasUpdate c = true) : ∀ text ∈ fixedOptions,
    ∃ field, ∃ p ∈ flagsMap field, Listed modeOtpYubico p text ∧ p.capability c = true ∧
      p.flag &&& updateMask field ≠ p.flag := by
  obtain ⟨-, -, -, htwo, hextras⟩ := capabilities_of_update hupdate
  intro text htext
  have hcases : text = "protectSecond" ∨ text = "sendRef" ∨ text = "shortTicket" := by
    simpa [fixedOptions] using htext
  rcases hcases with rfl | rfl | rfl
  · exact ⟨.tkt, ticketFlagsMap[6], List.getElem_mem _, ⟨rfl, by decide⟩, htwo, by decide⟩
  · exact ⟨.cfg, configFlagsMap[8], List.getElem_mem _, ⟨rfl, by decide⟩, rfl, by decide⟩
  · exact ⟨.cfg, configFlagsMap[14], List.getElem_mem _, ⟨rfl, by decide⟩, hextras, by decide⟩

/-- What an import sets in the slot of an update is inside of the masks if and only if the
document is for a Yubico OTP and asks for none of the fixed options. -/
theorem masked_iff_updatable (hsets : Sets L mode options c f)
    (hmode : mode ∈ modesMap.map Prod.fst) (hupdate : capabilityHasUpdate c = true) :
    Masked f ↔ mode = modeOtpYubico ∧ ∀ text ∈ fixedOptions, ¬ IsTrue L options text := by
  rw [masked_iff_wanted hsets]
  constructor
  · intro h
    have hotp : mode = modeOtpYubico := by
      by_contra hne
      obtain ⟨field, p, hp, hby, hcap, hout⟩ := mode_outside L options hmode hne
        hupdate
      exact hout (h field p hp (.inl hby) hcap)
    refine ⟨hotp, fun text htext htrue => ?_⟩
    obtain ⟨field, p, hp, hlisted, hcap, hout⟩ := fixed_outside hupdate text htext
    exact hout (h field p hp (.inr ⟨text, hotp ▸ hlisted, htrue⟩) hcap)
  · rintro ⟨rfl, hfixed⟩ field p hp ((hby | ⟨hoath, -⟩) | ⟨text, hlisted, htrue⟩) -
    · have hnone : modeFlags modeOtpYubico = [] := rfl
      rw [hnone] at hby
      cases hby
    · exact absurd hoath (by decide)
    · refine (inside_or_fixed field p hp hlisted.2.2).resolve_right fun h => ?_
      exact hfixed text (h text hlisted.1) htrue

end Document

/-! ## Runs -/

section Runs

variable {σ : Type} {U : Usb σ} {M : MainEnv} {fuel : ℕ} {keyIndex : ℤ} {inf : Option Input}
  {m m' v u : MainState σ} {answers : List (List Char)} {call : Programming}

theorem sameCommand_frame : Frame (fun s s' => s'.cfg.command = s.cfg.command)
    fun s s' => s'.ykp.cfg.command = s.ykp.cfg.command where
  onYkp := ⟨fun _ _ _ h k => k.trans h, fun _ _ h => h.command⟩
  trans _ _ _ h k := k.trans h
  same _ _ h := by rw [h.ykp]
  ykp _ _ h := h

/-- The flag of a one-time password is outside of the masks. -/
theorem Masked.not_oathHotp {s : YkpState} (h : Masked s.cfg.ykcoreConfig.flags) :
    ykpGetTktflagOathHotp s.cfg = false := by
  have hmask : tktflagUpdateMask &&& tktflagOathHotp = 0 := by decide
  have htkt : s.cfg.ykcoreConfig.tktFlags &&& tktflagUpdateMask = s.cfg.ykcoreConfig.tktFlags :=
    h .tkt
  have hzero : s.cfg.ykcoreConfig.tktFlags &&& tktflagOathHotp = 0 := by
    rw [← htkt, UInt8.and_assoc, hmask, UInt8.and_zero]
  have hne : ¬ 0 = tktflagOathHotp := by decide
  simp [ykpGetTktflagOathHotp, ykpGetFlag, YkConfig.flags, hzero, hne]

/-- `set_oath_id` gives up on an update, and its failure goes by. -/
theorem oathId_masked {st : YkStatus} {t t' : MainState σ}
    (h : applyOathId U M st t = (.ok ⟨⟩, t')) (hmasked : Masked t.cfg.ykcoreConfig.flags) :
    t'.session.args.ykp = t.session.args.ykp := by
  rcases applyOathId_ok h with ⟨-, rfl⟩ | ⟨-, r, s, hset, rfl⟩
  · rfl
  · have hnot : ykpGetTktflagOathHotp t.session.args.ykp.cfg = false := hmasked.not_oathHotp
    have hs : s = (attempt (setOathId (M.argsEnv st) U.toHost t.session.args.oathid)
        t.session).2 := by rw [hset]
    rw [Proc.attempt_state, setOathId, Proc.get_bind_run, if_neg (by simp [hnot])] at hs
    rw [hs]
    rfl

theorem prepare_acts (h : prepare U M fuel keyIndex m = (.ok (inf, .none), v)) (hm : m.acts = [])
    {a : Act} (ha : a ∈ v.acts) : a.Passed ∨ ∃ ok, a = .step .setOathId ok := by
  obtain ⟨st, t, t', ht, hid, hpass, -⟩ := prepare_ok h
  refine (hpass.logs.mem_or ha).elim (fun ha => ?_) .inl
  have hacts : t.acts = [.step .argsToConfig true] := by rw [(parseOptions_ok ht).2, hm]; rfl
  have hlast : a ∈ t.acts ∨ ∃ ok, a = .step .setOathId ok := by
    rcases applyOathId_ok hid with ⟨-, rfl⟩ | ⟨-, r, s, -, rfl⟩
    · exact .inl ha
    · exact (List.mem_append.1 ha).imp_right fun h => ⟨r.isSome, List.mem_singleton.1 h⟩
  refine hlast.imp_left fun ha => .inl ?_
  rwa [hacts, List.mem_singleton] at ha

/-- The import of a run, by the log. -/
theorem AtCommit.import_iff (h : AtCommit U M fuel keyIndex inf m v u) (hm : m.acts = [])
    {text : List Char} {ok : Bool} : .step (.importConfig text) ok ∈ u.acts ↔
      ok = true ∧ ImportedText M text v u := by
  have hv : .step (.importConfig text) ok ∉ v.acts := fun ha => by
    rcases prepare_acts h.prepared hm ha with (ha | ha | ha) | ⟨_, ha⟩ <;> cases ha
  constructor
  · intro hu
    rcases importFile_ok h.imported with rfl | ⟨text', himport⟩
    · exact absurd hu hv
    · rw [himport.acts, List.mem_append, or_iff_right hv, List.mem_singleton] at hu
      cases hu
      exact ⟨rfl, himport⟩
  · rintro ⟨rfl, himport⟩
    rw [himport.acts]
    exact List.mem_append_right v.acts List.mem_cons_self

/-- The flags of an update were checked behind the options, and are as they were up to the
import. -/
theorem AtCommit.masked {argv : List (List Char)} {stdin : List Char}
    {scanCodes deviceInfo accessCode : List UInt8} {data : List Char} {dev : σ}
    (h : AtCommit U M fuel keyIndex inf
      (.start argv stdin scanCodes deviceInfo accessCode data dev) v u)
    (hu : IsUpdate v.cfg.command) :
    Masked v.cfg.ykcoreConfig.flags ∧ capabilityHasUpdate v.cfg = true := by
  obtain ⟨st, t, t', ht, hid, hpass, -⟩ := prepare_ok h.prepared
  have hargs : argsToConfig (M.argsEnv st) fuel (.fresh argv stdin scanCodes deviceInfo)
      = (.ok ⟨⟩, t.session.args) := (parseOptions_ok ht).1
  have hcommand : t'.cfg.command = t.cfg.command := by
    rcases applyOathId_ok hid with ⟨-, rfl⟩ | ⟨-, r, s, hset, rfl⟩
    · rfl
    · exact (sameCommand_frame.setOathId _ _ (fun _ _ _ _ _ _ => rfl) _).attempt.of_eq_ok hset
  have hpassed : v.cfg.command = t'.cfg.command := hpass.flags.command
  have hupdate : IsUpdate t.cfg.command := by
    rw [← hcommand, ← hpassed]
    exact hu
  obtain ⟨hmasked, hcap⟩ := argsToConfig_masked hargs hupdate
  have hflags : SameFlags t.session.args.ykp v.session.args.ykp := by
    rw [← oathId_masked hid hmasked]
    exact hpass.flags
  have hsame : ∀ field, v.cfg.ykcoreConfig.flags field = t.cfg.ykcoreConfig.flags field :=
    hflags.flags
  refine ⟨fun field => ?_, ?_⟩
  · rw [hsame]
    exact hmasked field
  · have hcongr := capability_congr hflags.version .ext extendedFlagsMap[5] (List.getElem_mem _)
    exact hcongr.trans hcap

/-- An import chooses no update. -/
theorem ImportedText.update {text : List Char} (h : ImportedText M text v u)
    (hu : IsUpdate u.cfg.command) : IsUpdate v.cfg.command := by
  obtain ⟨e, hrun⟩ := h.run
  obtain ⟨yprod, jmode, options, rawMode, command, -, -, hcmd, himp⟩ :=
    exists_imported (fun field => by cases field <;> rfl) hrun
  have hcommand : u.cfg.command = command := himp.command
  rw [hcommand] at hu
  rcases importedCommand_cases hcmd with rfl | ⟨-, hslot⟩
  · exact hu
  · simp only [List.mem_cons, List.not_mem_nil, or_false] at hslot
    rcases hslot with rfl | rfl | rfl <;> exact absurd hu (by decide)

theorem ImportedText.masked_iff {text : List Char} (h : ImportedText M text v u)
    (hcap : capabilityHasUpdate v.cfg = true) : Masked u.cfg.ykcoreConfig.flags ↔
      UpdatableDocument M.jsonC (M.jsonC.tokenerParse text) := by
  obtain ⟨e, hrun⟩ := h.run
  obtain ⟨yprod, jmode, options, rawMode, command, hp, hm, hcmd, himp⟩ :=
    exists_imported (fun field => by cases field <;> rfl) hrun
  have hmasked : Masked u.cfg.ykcoreConfig.flags ↔ modeOf rawMode = modeOtpYubico ∧
      ∀ text ∈ fixedOptions, ¬ IsTrue M.jsonC options text :=
    masked_iff_updatable himp.sets (modeOf_mem rawMode) hcap
  rw [hmasked]
  constructor
  · intro hotp yprod' jmode' options' rawMode' hp' hm'
    obtain ⟨rfl, rfl, rfl⟩ := hp.unique hp'
    obtain rfl := Option.some.inj (hm.symm.trans hm')
    exact hotp
  · exact fun hdoc => hdoc yprod jmode options rawMode hp hm

end Runs

section Results

variable {σ : Type} (U : Usb σ) (M : MainEnv) (fuel : ℕ) (argv : List (List Char))
  (stdin : List Char) (scanCodes deviceInfo accessCode : List UInt8) (data : List Char) (dev : σ)

/-- The flags that an update carries are inside of the masks, if and only if every document that
the run has imported is one for a Yubico OTP without the fixed options. -/
theorem update_flags_iff {c : YkConfig} {k : UInt8} {accCode : Option (Vector UInt8 accCodeSize)}
    (hcall : .program (.command (some c) k accCode) ∈ (ykpersonalize U M fuel
      (.start argv stdin scanCodes deviceInfo accessCode data dev)).2.acts)
    (hk : k = slotUpdate1 ∨ k = slotUpdate2) :
    (c.tktFlags &&& tktflagUpdateMask = c.tktFlags ∧
        c.cfgFlags &&& cfgflagUpdateMask = c.cfgFlags ∧
        c.extFlags &&& extflagUpdateMask = c.extFlags) ↔
      ∀ text ok, .step (.importConfig text) ok ∈ (ykpersonalize U M fuel
          (.start argv stdin scanCodes deviceInfo accessCode data dev)).2.acts →
        UpdatableDocument M.jsonC (M.jsonC.tokenerParse text) := by
  rcases ykpersonalize_outcome U M fuel
    (.start argv stdin scanCodes deviceInfo accessCode data dev) with
    hgrows | ⟨keyIndex, inf, v, u, answers, call, h⟩
  · cases hgrows.none rfl _ hcall
  obtain rfl := (h.call_mem rfl).1 hcall
  obtain ⟨rfl, rfl⟩ := h.fits.command c k accCode rfl
  have hmasked : (u.cfg.ykcoreConfig.tktFlags &&& tktflagUpdateMask = u.cfg.ykcoreConfig.tktFlags ∧
      u.cfg.ykcoreConfig.cfgFlags &&& cfgflagUpdateMask = u.cfg.ykcoreConfig.cfgFlags ∧
      u.cfg.ykcoreConfig.extFlags &&& extflagUpdateMask = u.cfg.ykcoreConfig.extFlags) ↔
      Masked u.cfg.ykcoreConfig.flags := by
    constructor
    · rintro ⟨htkt, hcfg, hext⟩ (_ | _ | _)
      exacts [htkt, hcfg, hext]
    · exact fun h => ⟨h .tkt, h .cfg, h .ext⟩
  rw [hmasked]
  rcases importFile_ok h.atCommit.imported with rfl | ⟨text, himport⟩
  · -- without an import, the flags are those of the options
    refine iff_of_true (h.atCommit.masked hk).1 fun text ok htext => ?_
    obtain ⟨-, himport⟩ := (h.atCommit.import_iff rfl).1 (h.step_mem.1 htext)
    exact absurd himport.acts (by simp)
  · have hcap : capabilityHasUpdate v.cfg = true := (h.atCommit.masked (himport.update hk)).2
    constructor
    · intro hflags text' ok htext
      obtain ⟨-, himport'⟩ := (h.atCommit.import_iff rfl).1 (h.step_mem.1 htext)
      exact (himport'.masked_iff hcap).1 hflags
    · intro hall
      have hlogged := (h.atCommit.import_iff rfl).2 ⟨rfl, himport⟩
      exact (himport.masked_iff hcap).2 (hall text true (h.step_mem.2 hlogged))

end Results

section Examples

open ScriptedMain

/-- A document of a Yubico OTP with its options. -/
def otpDocument (options : List (String × Json)) : Json :=
  .object [("yubiProdConfig", .object [("mode", .string "yubicoOTP"),
    ("options", .object options)])]

/-- An update of slot 1 that imports a document. -/
def updateWith (options : List (String × Json)) : Ret ℕ × MainState ScriptedKey :=
  ykpersonalize usb
    (env [otpDocument options] [("update", ScriptedJson.text (otpDocument options))]) 20
    (start ["ykpersonalize", "-u", "-1", "-y", "-i", "update", "-f", "ycfg"] "" (accepting 8))

theorem updateWith_run (options : List (String × Json)) : updateWith options = ykpersonalize usb
    (env [otpDocument options] [("update", ScriptedJson.text (otpDocument options))]) 20
    (.start (["ykpersonalize", "-u", "-1", "-y", "-i", "update", "-f", "ycfg"].map String.toList)
      [] (List.replicate 46 0) (List.replicate 128 0) (List.replicate 256 0)
      (List.replicate 1024 CString.nul)
      ⟨[], ScriptedKey.keyReport 1 0 :: ScriptedKey.keyReport 1 0 :: accepting 8⟩) := rfl

theorem updateWith_pacing : .program (.command
    (some { ykpAlloc.ykcoreConfig with cfgFlags := cfgflagPacing20ms }) slotUpdate1 none)
      ∈ (updateWith [("pacing20ms", .boolean true)]).2.acts := by
  decide +kernel

theorem update_flags_iff_pacing :
    let c : YkConfig := { ykpAlloc.ykcoreConfig with cfgFlags := cfgflagPacing20ms }
    let L := ScriptedJson.jsonC [otpDocument [("pacing20ms", .boolean true)]]
    (c.tktFlags &&& tktflagUpdateMask = c.tktFlags ∧
        c.cfgFlags &&& cfgflagUpdateMask = c.cfgFlags ∧
        c.extFlags &&& extflagUpdateMask = c.extFlags) ↔
      ∀ text ok, .step (.importConfig text) ok
          ∈ (updateWith [("pacing20ms", .boolean true)]).2.acts →
        UpdatableDocument L (L.tokenerParse text) := by
  have hcall := updateWith_pacing
  rw [updateWith_run] at hcall ⊢
  exact update_flags_iff _ _ _ _ _ _ _ _ _ _ hcall (.inl rfl)

/-- The flags of a document are not checked, and go into the slot. -/
theorem update_outside_of_masks :
    (updateWith [("sendRef", .boolean true)]).1 = .ok 0 ∧
      cfgflagSendRef &&& cfgflagUpdateMask ≠ cfgflagSendRef ∧
      .program (.command (some { ykpAlloc.ykcoreConfig with cfgFlags := cfgflagSendRef })
        slotUpdate1 none) ∈ (updateWith [("sendRef", .boolean true)]).2.acts := by
  decide +kernel

end Examples

end YkPers
