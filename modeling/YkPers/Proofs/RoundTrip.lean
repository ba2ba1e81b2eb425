import YkPers.Proofs.ImportConfig

/-!
# Exporting and importing again

Of a configuration that an import has left, the export shows every flag, as the mode, the digits or
an option of its own, and another import of it sets the same ones. The moving factor is shown if it
is 0 or 16. Any other one is exported as a random seed, which the import refuses.
-/

namespace YkPers

open Proc (attempt)

/-! ## What is exported -/

section Export

variable (c : YkConfig) (mode : UInt8)

theorem keys_filterMap_exportFlag (field : FlagField) : ∀ ps : List MapSt,
    ((ps.filterMap (exportFlag c field mode)).map Prod.fst).Sublist (ps.filterMap MapSt.jsonText)
  | [] => .slnil
  | p :: ps => by
    have ih := keys_filterMap_exportFlag field ps
    rcases htext : p.jsonText with _ | text
    · rw [List.filterMap_cons_none htext, List.filterMap_cons_none (by simp [exportFlag, htext])]
      exact ih
    rw [List.filterMap_cons_some htext]
    by_cases hlisted : p.mode ≠ 0 ∧ p.isFor mode = true
    · have hsome : exportFlag c field mode p
          = some (text, .boolean (c.flags field &&& p.flag = p.flag)) := by
        simp only [exportFlag, htext, if_pos hlisted]
      rw [List.filterMap_cons_some hsome]
      exact ih.cons_cons text
    · have hnone : exportFlag c field mode p = none := by
        simp only [exportFlag, htext, if_neg hlisted]
      rw [List.filterMap_cons_none hnone]
      exact ih.cons text

/-- The keys that options are exported under, in their order. -/
def optionKeys : List String :=
  ["fixedModhex"] ++ ["oathDigits", "fixedSeedvalue", "randomSeed"] ++
    ticketFlagsMap.filterMap MapSt.jsonText ++ configFlagsMap.filterMap MapSt.jsonText ++
    extendedFlagsMap.filterMap MapSt.jsonText

theorem nodup_optionKeys : optionKeys.Nodup := by decide

def exportMembers : List (String × Json) :=
  exportModhex c mode ++ exportOath c mode ++ exportFlags c mode .tkt ++ exportFlags c mode .cfg ++
    exportFlags c mode .ext

theorem nodup_exportMembers : ((exportMembers c mode).map Prod.fst).Nodup := by
  have hmodhex : ((exportModhex c mode).map Prod.fst).Sublist ["fixedModhex"] := by
    unfold exportModhex
    split_ifs
    · exact .refl _
    · exact List.nil_sublist _
  have hoath : ((exportOath c mode).map Prod.fst).Sublist
      ["oathDigits", "fixedSeedvalue", "randomSeed"] := by
    unfold exportOath
    split_ifs <;> simp
  refine nodup_optionKeys.sublist ?_
  simp only [exportMembers, List.map_append, optionKeys]
  exact (((hmodhex.append hoath).append (keys_filterMap_exportFlag c mode .tkt _)).append
    (keys_filterMap_exportFlag c mode .cfg _)).append (keys_filterMap_exportFlag c mode .ext _)

variable {c mode}

theorem get_exportOptions {key : String} {v : Json} (h : (key, v) ∈ exportMembers c mode) :
    (exportOptions c mode).get key = some v :=
  Json.get_adds_of_mem (nodup_exportMembers c mode) h []

theorem get_exportOptions_flag {field : FlagField} {p : MapSt} {text : String}
    (hp : p ∈ flagsMap field) (h : Listed mode p text) : (exportOptions c mode).get text
      = some (.boolean (c.flags field &&& p.flag = p.flag)) := by
  have hmem : (text, Json.boolean (c.flags field &&& p.flag = p.flag))
      ∈ exportFlags c mode field := by
    refine List.mem_filterMap.2 ⟨p, hp, ?_⟩
    simp only [exportFlag, h.1, if_pos h.2]
  refine get_exportOptions ?_
  cases field <;> simp [exportMembers, hmem]

/-- The options of an export that are true are those of the mode that are set. -/
theorem asked_exportOptions (L : JsonC) {field : FlagField} {p : MapSt} (hp : p ∈ flagsMap field) :
    Asked L mode (exportOptions c mode) p ↔
      (∃ text, Listed mode p text) ∧ c.flags field &&& p.flag = p.flag := by
  constructor
  · rintro ⟨text, h, j, hj, -, htrue⟩
    obtain rfl := Option.some.inj ((get_exportOptions_flag hp h).symm.trans hj)
    rw [L.getBoolean_boolean] at htrue
    exact ⟨⟨text, h⟩, of_decide_eq_true htrue⟩
  · rintro ⟨⟨text, h⟩, hset⟩
    refine ⟨text, h, _, get_exportOptions_flag hp h, rfl, ?_⟩
    rw [L.getBoolean_boolean]
    exact decide_eq_true hset

/-- The moving factor is one that the export shows. -/
def Shown (c : YkConfig) : Prop := (c.imfLow = 1 ∨ c.imfLow = 0) ∧ c.imfHigh = 0

theorem mem_exportMembers_oath {m : String × Json} (h : m ∈ exportOath c modeOathHotp) :
    m ∈ exportMembers c modeOathHotp := by
  simp [exportMembers, h]

theorem digitsEight_exportOptions (L : JsonC) : DigitsEight L (exportOptions c modeOathHotp) ↔
    c.cfgFlags &&& cfgflagOathHotp8 = cfgflagOathHotp8 := by
  have hget : (exportOptions c modeOathHotp).get "oathDigits" = some (.int
      (if c.cfgFlags &&& cfgflagOathHotp8 = cfgflagOathHotp8 then 8 else 6)) :=
    get_exportOptions (mem_exportMembers_oath (by simp [exportOath]))
  have h8 : L.getInt (.int 8) = 8 := L.getInt_int 8
  have h6 : L.getInt (.int 6) = 6 := L.getInt_int 6
  simp only [DigitsEight, hget, Option.some.injEq, exists_eq_left']
  split_ifs with h
  · exact iff_of_true h8 h
  · exact iff_of_false (by rw [h6]; decide) h

theorem get_randomSeed_shown (h : Shown c) :
    (exportOptions c modeOathHotp).get "randomSeed" = some (.boolean false) :=
  get_exportOptions (mem_exportMembers_oath (by
    rw [exportOath, if_pos rfl, if_pos (show _ ∧ _ from h)]
    simp))

theorem get_fixedSeedvalue_shown (h : Shown c) :
    (exportOptions c modeOathHotp).get "fixedSeedvalue" = some (.int (c.imfLow.toNat <<< 4 : ℕ)) :=
  get_exportOptions (mem_exportMembers_oath (by
    rw [exportOath, if_pos rfl, if_pos (show _ ∧ _ from h)]
    simp))

theorem randomSeed_exportOptions (L : JsonC) :
    RandomSeed L (exportOptions c modeOathHotp) ↔ ¬ Shown c := by
  by_cases h : Shown c
  · refine iff_of_false ?_ (not_not.2 h)
    rintro ⟨j, hj, htrue⟩
    obtain rfl := Option.some.inj ((get_randomSeed_shown h).symm.trans hj)
    rw [L.getBoolean_boolean] at htrue
    cases htrue
  · refine iff_of_true ⟨.boolean true, ?_, L.getBoolean_boolean true⟩ h
    refine get_exportOptions (mem_exportMembers_oath ?_)
    rw [exportOath, if_pos rfl, if_neg (show ¬ (_ ∧ _) from h)]
    simp

theorem fixedSeed_exportOptions (L : JsonC) (h : Shown c) :
    sizeT (fixedSeed L (exportOptions c modeOathHotp)) = c.imfLow.toNat * 16 := by
  rw [fixedSeed, get_fixedSeedvalue_shown h]
  have h16 : L.getInt (.int 16) = 16 := L.getInt_int 16
  have h0 : L.getInt (.int 0) = 0 := L.getInt_int 0
  rcases h.1 with h5 | h5
  · simp only [h5, Option.map_some, Option.getD_some]
    exact congrArg sizeT h16
  · simp only [h5, Option.map_some, Option.getD_some]
    exact congrArg sizeT h0

end Export

/-! ## The members of the document -/

section Document

variable (Y : Encoders) (cfg : YkpConfig)

def documentMembers : List (String × Json) :=
  exportModeName (exportMode cfg.ykcoreConfig) ++ exportTarget cfg ++ exportProtection cfg ++
    [("options", exportOptions cfg.ykcoreConfig (exportMode cfg.ykcoreConfig))] ++
    exportScope Y cfg.ykcoreConfig (exportMode cfg.ykcoreConfig)

theorem keys_documentMembers : ((documentMembers Y cfg).map Prod.fst).Sublist
    (["mode"] ++ (exportTarget cfg).map Prod.fst ++ ["protection"] ++ ["options"] ++
      ["scope", "prefix"]) := by
  have hmode : ((exportModeName (exportMode cfg.ykcoreConfig)).map Prod.fst).Sublist ["mode"] := by
    unfold exportModeName
    rcases modesMap.find? _ with _ | m <;> simp
  have hprotection : ((exportProtection cfg).map Prod.fst).Sublist ["protection"] := by
    unfold exportProtection
    split_ifs <;> simp
  have hscope : ((exportScope Y cfg.ykcoreConfig (exportMode cfg.ykcoreConfig)).map
      Prod.fst).Sublist ["scope", "prefix"] := by
    unfold exportScope
    split_ifs <;> simp
  simp only [documentMembers, List.map_append]
  exact (((hmode.append (.refl _)).append hprotection).append (.refl _)).append hscope

theorem exportTarget_cases : exportTarget cfg = [] ∨
    ∃ n : Int32, exportTarget cfg = [("targetConfig", .int n.toInt)] ∧
      targetCommand n = some cfg.command := by
  unfold exportTarget
  split_ifs with h1 h2
  · exact .inr ⟨1, rfl, h1 ▸ rfl⟩
  · exact .inr ⟨2, rfl, h2 ▸ rfl⟩
  · exact .inl rfl

theorem nodup_documentMembers : ((documentMembers Y cfg).map Prod.fst).Nodup := by
  refine List.Nodup.sublist (keys_documentMembers Y cfg) ?_
  rcases exportTarget_cases cfg with h | ⟨n, h, -⟩
  · rw [h]
    decide
  · simp [h]

variable {Y cfg}

theorem get_documentMembers {key : String} {v : Json} (h : (key, v) ∈ documentMembers Y cfg) :
    ((Json.object []).adds (documentMembers Y cfg)).get key = some v :=
  Json.get_adds_of_mem (nodup_documentMembers Y cfg) h []

theorem exportModeName_of_mem {m : UInt8 × String} (hm : m ∈ modesMap) :
    exportModeName m.1 = [("mode", .string m.2)] := by
  have hfind : ∀ m ∈ modesMap, modesMap.find? (fun n => n.1 = m.1) = some m := by decide
  rw [exportModeName, hfind m hm]
  rfl

theorem parts_exportDocument {m : UInt8 × String} (hm : m ∈ modesMap)
    (hmode : exportMode cfg.ykcoreConfig = m.1) : Parts (exportDocument Y cfg)
      ((Json.object []).adds (documentMembers Y cfg)) (.string m.2)
      (exportOptions cfg.ykcoreConfig m.1) where
  notNull := rfl
  hasConfig := Json.get_add_self [] "yubiProdConfig" _
  hasMode := get_documentMembers (by
    simp [documentMembers, hmode, exportModeName_of_mem hm])
  hasOptions := get_documentMembers (by simp [documentMembers, hmode])

/-- The command that has been chosen is the target of the export. -/
theorem importedCommand_exportDocument (L : JsonC) {c : YkpConfig} (h0 : c.command ≠ 0)
    (hcmd : cfg.command = c.command) :
    importedCommand L ((Json.object []).adds (documentMembers Y cfg)) c = some c.command := by
  have haccepted : TargetAccepted L ((Json.object []).adds (documentMembers Y cfg)) c := by
    intro j hj
    rcases exportTarget_cases cfg with hnone | ⟨n, htarget, hn⟩
    · have hkey : "targetConfig" ∉ (documentMembers Y cfg).map Prod.fst := fun h => by
        have hmem := (keys_documentMembers Y cfg).subset h
        rw [hnone] at hmem
        exact absurd hmem (by decide)
      rw [Json.get_adds_of_notMem hkey] at hj
      cases hj
    · have hget : ((Json.object []).adds (documentMembers Y cfg)).get "targetConfig"
          = some (.int n.toInt) := get_documentMembers (by simp [documentMembers, htarget])
      obtain rfl := Option.some.inj (hget.symm.trans hj)
      exact ⟨cfg.command, by rw [L.getInt_int, hn], .inr hcmd.symm⟩
  obtain ⟨command, himported, hchosen⟩ := importedCommand_of_accepted haccepted
  rw [himported, hchosen.2 fun h => h0 h.1]

end Document

section Results

variable {L : JsonC} {Y : Encoders}

/-- The text is cut to what the buffer has room for in front of a NUL. -/
theorem ykpJsonExportCfg_run {S : Type} (L : JsonC) (Y : Encoders) (cfg : YkpConfig)
    {mem : List Char} {len : ℕ} (hlen : len ≤ mem.length) (hpos : 0 < len) (s : S) :
    ∃ out, ykpJsonExportCfg Y L cfg mem len s
        = (.ok (out, ((L.toJsonString (exportDocument Y cfg)).take (len - 1)).length), s) ∧
      CString.read out = some ((L.toJsonString (exportDocument Y cfg)).take (len - 1)) := by
  generalize htext : L.toJsonString (exportDocument Y cfg) = text
  have hnul : CString.nul ∉ text := htext ▸ L.toJsonString_nul _
  have hcopy : (CString.strncpy len text).length = len := by simp [CString.strncpy]
  have hstore : (Buffer.store mem 0 (CString.strncpy len text)).set (len - 1) CString.nul
      = (CString.strncpy len text).set (len - 1) CString.nul ++ mem.drop len := by
    rw [Buffer.store, List.take_zero, List.nil_append, hcopy, Nat.zero_add,
      List.set_append_left _ _ (by omega)]
  have hread : CString.read ((Buffer.store mem 0 (CString.strncpy len text)).set (len - 1)
      CString.nul) = some (text.take (len - 1)) := by
    rw [hstore]
    exact CString.read_append_of_read (CString.read_strncpy_take hnul hpos) _
  refine ⟨_, ?_, hread⟩
  simp only [ykpJsonExportCfg, if_neg (Nat.not_lt.2 hlen), htext, if_pos hpos, hread]
  rfl

/-- Into a buffer that is large enough the whole text is written. -/
theorem ykpJsonExportCfg_ok {S : Type} {cfg : YkpConfig} {mem : List Char} {len : ℕ}
    (hlen : len ≤ mem.length) (hfits : (L.toJsonString (exportDocument Y cfg)).length < len)
    (s : S) : ∃ out, ykpJsonExportCfg Y L cfg mem len s
        = (.ok (out, (L.toJsonString (exportDocument Y cfg)).length), s) ∧
      CString.read out = some (L.toJsonString (exportDocument Y cfg)) := by
  have hrun := ykpJsonExportCfg_run L Y cfg hlen (by omega) s
  rwa [List.take_of_length_le (by omega)] at hrun

/-- The flags of another import, of what is exported of them. -/
theorem sets_exported {mode : UInt8} {options : Json} {c : YkpConfig} {f g : FlagField → UInt8}
    {c' : YkConfig} (hc' : ∀ field, c'.flags field = f field)
    (hf : Sets L mode options c f) (hg : Sets L mode (exportOptions c' mode) c g) : g = f := by
  have hset : ∀ {field p}, p ∈ flagsMap field → Wanted L mode options field p →
      p.capability c = true → f field &&& p.flag = p.flag := fun {field p} hp hw hc =>
    and_eq_iff.2 fun i hi => (hf field i).2 ⟨p, hp, hw, hc, hi⟩
  have hasked : ∀ {field p}, p ∈ flagsMap field → (Asked L mode (exportOptions c' mode) p ↔
      (∃ text, Listed mode p text) ∧ f field &&& p.flag = p.flag) := fun {field p} hp => by
    rw [asked_exportOptions L hp, hc']
  funext field
  refine eq_of_bit fun i => ?_
  constructor
  · intro hi
    obtain ⟨p, hp, hw, hc, hb⟩ := (hg field i).1 hi
    rcases hw with (hmem | ⟨rfl, hd, ht⟩) | ha
    · exact (hf field i).2 ⟨p, hp, .inl (.inl hmem), hc, hb⟩
    · -- the digits are shown as 8 where their bit is set
      rw [Prod.mk.injEq] at ht
      obtain ⟨rfl, ht⟩ := ht
      obtain rfl := eq_of_flagText .cfg 4 hp rfl ht
      rw [digitsEight_exportOptions L] at hd
      have hset := hc' .cfg ▸ (show c'.flags .cfg &&& _ = _ from hd)
      exact and_eq_iff.1 hset i hb
    · exact and_eq_iff.1 ((hasked hp).1 ha).2 i hb
  · intro hi
    obtain ⟨p, hp, hw, hc, hb⟩ := (hf field i).1 hi
    have hpset := hset hp hw hc
    refine (hg field i).2 ⟨p, hp, ?_, hc, hb⟩
    rcases hw with (hmem | ⟨rfl, hd, ht⟩) | ⟨text, h, -⟩
    · exact .inl (.inl hmem)
    · refine .inl (.inr ⟨rfl, ?_, ht⟩)
      rw [Prod.mk.injEq] at ht
      obtain ⟨rfl, ht⟩ := ht
      obtain rfl := eq_of_flagText .cfg 4 hp rfl ht
      rw [← hc'] at hpset
      exact (digitsEight_exportOptions L).2 hpset
    · exact .inr ((hasked hp).2 ⟨⟨text, h⟩, hpset⟩)

/-! ## The moving factor -/

theorem shown_iff {c : YkpConfig} (hcap : capabilityHasOathImf c = true) :
    Shown c.ykcoreConfig ↔ ykpGetOathImf c = 0 ∨ ykpGetOathImf c = 16 := by
  have hlow := c.ykcoreConfig.imfLow.toNat_lt
  rw [ykpGetOathImf, if_neg (not_not.2 hcap), ← Nat.shiftLeft_add_eq_or_of_lt hlow,
    Nat.shiftLeft_eq, Nat.shiftLeft_eq, Shown, ← UInt8.toNat_inj, ← UInt8.toNat_inj,
    ← UInt8.toNat_inj]
  simp only [YkConfig.imfHigh, YkConfig.imfLow, UInt8.reduceToNat] at hlow ⊢
  omega

/-- The moving factor that comes of the options: theirs if it is read and taken, or the old one. -/
def movingFactor (L : JsonC) (options : Json) (c : YkpConfig) : ℕ :=
  if (options.get "randomSeed").isSome = true ∧ ImfAccepted c (sizeT (fixedSeed L options)) then
    sizeT (fixedSeed L options)
  else ykpGetOathImf c

theorem ykpGetOathImf_seeded (options : Json) (c : YkpConfig) :
    ykpGetOathImf (c.seeded L modeOathHotp options) = movingFactor L options c := by
  unfold YkpConfig.seeded movingFactor
  by_cases h : (options.get "randomSeed").isSome = true ∧
      ImfAccepted c (sizeT (fixedSeed L options))
  · rw [if_pos ⟨rfl, h⟩, if_pos h, ykpGetOathImf_withImf h.2]
  · rw [if_neg fun h' => h h'.2, if_neg h]

/-- What is shown of a moving factor is read back. -/
theorem movingFactor_exported {c c' : YkpConfig} (hcap : capabilityHasOathImf c = true)
    (hcap' : capabilityHasOathImf c' = true) (h : Shown c'.ykcoreConfig) :
    movingFactor L (exportOptions c'.ykcoreConfig modeOathHotp) c = ykpGetOathImf c' := by
  have hseed := fixedSeed_exportOptions L h
  have hlow : c'.ykcoreConfig.imfLow.toNat ≤ 1 := by
    rcases h.1 with h5 | h5 <;> rw [h5] <;> decide
  have hread : ((exportOptions c'.ykcoreConfig modeOathHotp).get "randomSeed").isSome = true := by
    rw [get_randomSeed_shown h]
    rfl
  have hhigh : c'.ykcoreConfig.uid[4] = 0 := h.2
  rw [movingFactor, if_pos ⟨hread, hcap, by omega, by omega⟩, hseed, ykpGetOathImf,
    if_neg (not_not.2 hcap'), hhigh]
  simp [Nat.shiftLeft_eq]

/-- From firmware 2.4 on every mode is there, and the moving factor. -/
theorem modeCapability_of_v24 {c : YkpConfig} (h : vcheckV24OrGreater c = true) (mode : UInt8) :
    modeCapability mode c = true ∧ capabilityHasOathImf c = true := by
  have hv : (c.ykMajorVersion = 2 ∧ c.ykMinorVersion > 1 ∧ c.ykMinorVersion ≥ 2 ∧
      c.ykMinorVersion ≠ 1) ∨ c.ykMajorVersion > 2 ∧ c.ykMajorVersion ≠ 2 := by
    simp only [vcheckV24OrGreater, vcheckV2OrGreater, Bool.or_eq_true, Bool.and_eq_true,
      decide_eq_true_eq] at h
    rcases h with ⟨hmajor, hminor⟩ | hmajor
    · have h1 : c.ykMinorVersion > 1 := UInt8.lt_of_lt_of_le (by decide) hminor
      exact .inl ⟨hmajor, h1, UInt8.le_trans (by decide) hminor, (UInt8.ne_of_lt h1).symm⟩
    · exact .inr ⟨hmajor, (UInt8.ne_of_lt hmajor).symm⟩
  have hneo : vcheckNeo c = false := by
    rcases hv with ⟨-, -, -, hne⟩ | ⟨-, hne⟩ <;> simp [vcheckNeo, hne]
  have hv22 : vcheckV22OrGreater c = true := by
    rcases hv with ⟨hmajor, -, hminor, -⟩ | ⟨hmajor, -⟩ <;>
      simp [vcheckV22OrGreater, vcheckV2OrGreater, *]
  have hv21 : vcheckV21OrGreater c = true := by
    rcases hv with ⟨hmajor, hminor, -, -⟩ | ⟨hmajor, -⟩ <;> simp [vcheckV21OrGreater, *]
  refine ⟨?_, by simp [capabilityHasOathImf, hv22]⟩
  unfold modeCapability
  split_ifs
  · simp [capabilityHasOath, hv21]
  · exact hv22
  · simp [capabilityHasStatic, vcheckAll, vcheckNeoBefore5, hneo]
  · rfl

/-! ## Another import -/

theorem Imported.exportMode {mode : UInt8} {options : Json} {c : YkpConfig} {s : YkpState}
    (h : Imported L mode options c s) (hmode : mode ∈ modesMap.map Prod.fst)
    (hversion : vcheckV24OrGreater c = true) : exportMode s.cfg.ykcoreConfig = mode := by
  rw [h.cfg]
  exact (exportMode_withFlags h.sets hmode _).2 (modeCapability_of_v24 hversion mode).1

theorem Imported.imf {mode : UInt8} {options : Json} {c : YkpConfig} {s : YkpState}
    (h : Imported L mode options c s) : ykpGetOathImf s.cfg
      = if mode = modeOathHotp then movingFactor L options c else ykpGetOathImf c := by
  have hseeded : ykpGetOathImf s.cfg = ykpGetOathImf (c.seeded L mode options) := by
    rw [h.cfg]
    exact ykpGetOathImf_congr rfl rfl
  rw [hseeded]
  split_ifs with hm
  · rw [hm, ykpGetOathImf_seeded]
  · rw [YkpConfig.seeded, if_neg fun h => hm h.1]

theorem Imported.version {mode : UInt8} {options : Json} {c : YkpConfig} {s : YkpState}
    (h : Imported L mode options c s) : s.cfg.version = c.version := by
  rw [h.cfg]
  exact YkpConfig.seeded_version c

/-- The export of what an import has left is taken again where it does not call its seed random,
and leaves the same. -/
theorem reimport_document_iff {m : UInt8 × String} (hm : m ∈ modesMap) {options : Json}
    {c : YkpConfig} {s : YkpState} (h : Imported L m.1 options c s) (h0 : c.command ≠ 0)
    (hclear : ∀ field, c.ykcoreConfig.flags field = 0)
    (hversion : vcheckV24OrGreater c = true) (e : Option YkpErr) :
    (∃ s', importDocument L (exportDocument Y s.cfg) ⟨c, e⟩ = (.ok ⟨⟩, s') ∧
      (∀ field, s'.cfg.ykcoreConfig.flags field = s.cfg.ykcoreConfig.flags field) ∧
      s'.cfg.command = s.cfg.command ∧ ykpGetOathImf s'.cfg = ykpGetOathImf s.cfg) ↔
    (m.1 = modeOathHotp → Shown s.cfg.ykcoreConfig) := by
  have hparts := parts_exportDocument (Y := Y) hm
    (h.exportMode (List.mem_map_of_mem hm) hversion)
  have hcmd := importedCommand_exportDocument (Y := Y) L h0 h.command
  have hraw := L.getString_string m.2
  have hmode := modeOf_of_mem m hm
  by_cases hshown : m.1 = modeOathHotp → Shown s.cfg.ykcoreConfig
  swap
  · rw [Classical.not_imp] at hshown
    obtain ⟨ho, hhidden⟩ := hshown
    have hrandom := (randomSeed_exportOptions L).2 hhidden
    rw [← ho] at hrandom
    obtain ⟨f, hrun, -⟩ := importDocument_random (s := ⟨c, e⟩) hparts hcmd hraw (hmode.trans ho)
      hrandom
    refine iff_of_false ?_ fun h => hhidden (h ho)
    rintro ⟨s', hs', -⟩
    exact absurd (congrArg Prod.fst (hrun.symm.trans hs')) (by simp)
  refine iff_of_true ?_ hshown
  have hr : ¬ (modeOf m.2 = modeOathHotp ∧
      RandomSeed L (exportOptions s.cfg.ykcoreConfig m.1)) := by
    rw [hmode]
    rintro ⟨ho, hrandom⟩
    rw [ho] at hrandom
    exact (randomSeed_exportOptions L).1 hrandom (hshown ho)
  obtain ⟨s', hrun⟩ : ∃ s', importDocument L (exportDocument Y s.cfg) ⟨c, e⟩ = (.ok ⟨⟩, s') := by
    obtain ⟨g, e', hrun, -⟩ := importDocument_ok (s := ⟨c, e⟩) hparts hcmd hraw hr
    exact ⟨_, hrun⟩
  obtain ⟨yprod, jmode, options', rawMode, hp, hm', himp⟩ := exists_imported_of_ne hclear h0 hrun
  obtain ⟨rfl, rfl, rfl⟩ := hp.unique hparts
  obtain rfl := Option.some.inj (hraw.symm.trans hm')
  rw [hmode] at himp
  refine ⟨s', hrun, fun field => ?_, ?_, ?_⟩
  · exact congrFun (sets_exported (fun _ => rfl) h.sets himp.sets) field
  · rw [himp.command, h.command]
  · rw [himp.imf]
    split_ifs with ho
    · rw [ho]
      have himf := (modeCapability_of_v24 hversion m.1).2
      exact movingFactor_exported himf ((capabilityHasOathImf_congr h.version).trans himf)
        (hshown ho)
    · rw [h.imf, if_neg ho]

/-- The document is not one of a one-time password, or its moving factor is shown. -/
def Reimportable (L : JsonC) (jobj : Json) (c : YkpConfig) : Prop :=
  ∀ yprod jmode options, Parts jobj yprod jmode options → L.getString jmode = some "oathHOTP" →
    movingFactor L options c = 0 ∨ movingFactor L options c = 16

/-- For a configuration that an import has left, its export can be imported in its place if and
only if the moving factor is shown. -/
theorem reimport_iff (L : JsonC) (Y : Encoders) {c : YkpConfig}
    (hversion : vcheckV24OrGreater c = true) (hclear : ∀ field, c.ykcoreConfig.flags field = 0)
    (h0 : c.command ≠ 0) {e : Option YkpErr} {buf text : List Char}
    (hbuf : CString.read buf = some text) {s : YkpState}
    (hok : ykpImportConfig L buf ykpFormatYcfg ⟨c, e⟩ = (.ok ⟨⟩, s))
    (hparse : L.tokenerParse (L.toJsonString (exportDocument Y s.cfg)) = exportDocument Y s.cfg)
    {mem : List Char} {len : ℕ} (hlen : len ≤ mem.length)
    (hfits : (L.toJsonString (exportDocument Y s.cfg)).length < len) (e' : Option YkpErr) :
    (∃ out n, ykpJsonExportCfg Y L s.cfg mem len s = (.ok (out, n), s) ∧
      ∃ s', ykpImportConfig L out ykpFormatYcfg ⟨c, e'⟩ = (.ok ⟨⟩, s') ∧
        (∀ field, s'.cfg.ykcoreConfig.flags field = s.cfg.ykcoreConfig.flags field) ∧
        s'.cfg.command = s.cfg.command ∧ ykpGetOathImf s'.cfg = ykpGetOathImf s.cfg) ↔
      Reimportable L (L.tokenerParse text) c := by
  rw [ykpImportConfig_ycfg hbuf] at hok
  obtain ⟨yprod, jmode, options, rawMode, hp, hraw, himp⟩ := exists_imported_of_ne hclear h0 hok
  obtain ⟨m, hm, hmode⟩ : ∃ m ∈ modesMap, m.1 = modeOf rawMode :=
    List.mem_map.1 (modeOf_mem rawMode)
  rw [← hmode] at himp
  obtain ⟨out, hexport, hout⟩ := ykpJsonExportCfg_ok hlen hfits s
  have hagain : ykpImportConfig L out ykpFormatYcfg
      = importDocument L (exportDocument Y s.cfg) := by
    rw [ykpImportConfig_ycfg hout, hparse]
  have hcap : capabilityHasOathImf s.cfg = true :=
    (capabilityHasOathImf_congr himp.version).trans (modeCapability_of_v24 hversion m.1).2
  have hshown : (m.1 = modeOathHotp → Shown s.cfg.ykcoreConfig) ↔
      Reimportable L (L.tokenerParse text) c := by
    constructor
    · rintro h y j o hp' hj
      obtain ⟨rfl, rfl, rfl⟩ := hp.unique hp'
      have ho : m.1 = modeOathHotp := by
        rw [hmode, modeOf_eq_oathHotp]
        exact Option.some.inj (hraw.symm.trans hj)
      have hs := (shown_iff hcap).1 (h ho)
      rwa [himp.imf, if_pos ho] at hs
    · intro h ho
      have hj : L.getString jmode = some "oathHOTP" := by
        rw [hraw, modeOf_eq_oathHotp.1 (hmode.symm.trans ho)]
      rw [shown_iff hcap, himp.imf, if_pos ho]
      exact h yprod jmode options hp hj
  rw [← hshown, ← reimport_document_iff (Y := Y) hm himp h0 hclear hversion e']
  constructor
  · rintro ⟨out', n, hrun, hs'⟩
    obtain rfl : out = out' :=
      congrArg Prod.fst (Ret.ok.inj (Prod.mk.inj (hexport.symm.trans hrun)).1)
    rwa [hagain] at hs'
  · intro hs'
    exact ⟨out, _, hexport, by rwa [hagain]⟩

end Results

section Runs

open ScriptedHost (env)
open ScriptedJson (jsonC memory text libyubikey)

/-- A cleared configuration for the first slot. -/
def slotOne : YkpConfig := (allocated (env 2 4 0).st none).cfg.withCommand slotConfig

theorem reimport_iff_digits :
    let doc := oathDocument
      [("oathDigits", .int 8), ("fixedSeedvalue", .int 16), ("randomSeed", .boolean false)]
    let s := (ykpImportConfig (jsonC [doc]) (memory doc) ykpFormatYcfg ⟨slotOne, none⟩).2
    let L := jsonC [doc, exportDocument libyubikey s.cfg]
    (∃ out n, ykpJsonExportCfg libyubikey L s.cfg (List.replicate 1024 ' ') 1024 s
        = (.ok (out, n), s) ∧
      ∃ s', ykpImportConfig L out ykpFormatYcfg ⟨slotOne, none⟩ = (.ok ⟨⟩, s') ∧
        (∀ field, s'.cfg.ykcoreConfig.flags field = s.cfg.ykcoreConfig.flags field) ∧
        s'.cfg.command = s.cfg.command ∧ ykpGetOathImf s'.cfg = ykpGetOathImf s.cfg) ↔
      Reimportable L (L.tokenerParse (text doc)) slotOne := by
  intro doc s L
  exact reimport_iff L libyubikey (by decide) (fun field => by cases field <;> rfl) (by decide)
    (e := none) (ScriptedJson.read_memory doc) (by decide +kernel)
    (ScriptedJson.tokenerParse_text (by decide +kernel) (by simp))
    (by rw [List.length_replicate]) (by decide +kernel) none

/-- A seed of 32 is taken, and exported as a random one. -/
theorem reimport_refused :
    let doc := oathDocument [("fixedSeedvalue", .int 32), ("randomSeed", .boolean false)]
    let s := (ykpImportConfig (jsonC [doc]) (memory doc) ykpFormatYcfg ⟨slotOne, none⟩).2
    let exported := exportDocument libyubikey s.cfg
    let L := jsonC [doc, exported]
    ykpImportConfig L (memory doc) ykpFormatYcfg ⟨slotOne, none⟩ = (.ok ⟨⟩, s) ∧
      L.tokenerParse (text exported) = exported ∧
      (ykpJsonExportCfg libyubikey L s.cfg (memory exported) (memory exported).length s).1
        = .ok (memory exported, (text exported).length) ∧
      (ykpImportConfig L (memory exported) ykpFormatYcfg ⟨slotOne, none⟩).1 = .fail := by
  intro doc s exported L
  exact ⟨by decide +kernel, ScriptedJson.tokenerParse_text (by decide +kernel) (by simp),
    by decide +kernel, by decide +kernel⟩

end Runs

end YkPers
