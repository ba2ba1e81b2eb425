import YkPers.Proofs.Honoured
import YkPers.ScriptedHost
import YkPers.ScriptedJson

/-!
# The results of an import

Where an import that returns 1 honours its document (`import_honours_iff`), and where one that
returns 0 has left the configuration alone (`import_atomic_iff`).
-/

namespace YkPers

section Results

variable {L : JsonC} {jobj yprod jmode options : Json} {c : YkpConfig}

theorem ykpImportConfig_ycfg {buf text : List Char} (hbuf : CString.read buf = some text) :
    ykpImportConfig L buf ykpFormatYcfg = importDocument L (L.tokenerParse text) := by
  rw [ykpImportConfig, if_pos rfl, ykpJsonImportCfg, hbuf]

theorem Parts.unique {yprod' jmode' options' : Json} (h : Parts jobj yprod jmode options)
    (h' : Parts jobj yprod' jmode' options') :
    yprod' = yprod ∧ jmode' = jmode ∧ options' = options := by
  obtain rfl := Option.some.inj (h'.hasConfig.symm.trans h.hasConfig)
  exact ⟨rfl, Option.some.inj (h'.hasMode.symm.trans h.hasMode),
    Option.some.inj (h'.hasOptions.symm.trans h.hasOptions)⟩

theorem modeOf_eq_oathHotp {rawMode : String} :
    modeOf rawMode = modeOathHotp ↔ rawMode = "oathHOTP" :=
  modeOf_eq_iff (m := (modeOathHotp, "oathHOTP")) (by decide) (by decide)

/-- How an import of a document ends. -/
inductive ImportEnds (L : JsonC) (jobj : Json) (s : YkpState) : Ret Unit × YkpState → Prop
  | refused (h : ∀ yprod jmode options, Parts jobj yprod jmode options →
      importedCommand L yprod s.cfg = none) :
    ImportEnds L jobj s (.fail, { s with ykpErrno := some .EINVAL })
  -- `strcmp` on a null pointer
  | noMode {yprod jmode options : Json} {command : UInt8} {t : YkpState}
      (hp : Parts jobj yprod jmode options) (hc : importedCommand L yprod s.cfg = some command)
      (hm : L.getString jmode = none) : ImportEnds L jobj s (.fault, t)
  | random {yprod jmode options : Json} {command : UInt8} {f : FlagField → UInt8}
      (hp : Parts jobj yprod jmode options) (hc : importedCommand L yprod s.cfg = some command)
      (hm : L.getString jmode = some "oathHOTP") (hr : RandomSeed L options)
      (hf : ∀ field i, bit (f field) i ↔ bit (s.cfg.ykcoreConfig.flags field) i ∨
        ∃ p ∈ flagsMap field, ByMode L modeOathHotp options field p ∧
          p.capability s.cfg = true ∧ bit p.flag i) :
    ImportEnds L jobj s (.fail, ⟨(s.cfg.withCommand command).withFlags f, some .ENORANDOM⟩)
  | imported {yprod jmode options : Json} {command : UInt8} {rawMode : String}
      {f : FlagField → UInt8} {e : Option YkpErr}
      (hp : Parts jobj yprod jmode options) (hc : importedCommand L yprod s.cfg = some command)
      (hm : L.getString jmode = some rawMode)
      (hr : ¬ (rawMode = "oathHOTP" ∧ RandomSeed L options))
      (hf : ∀ field i, bit (f field) i ↔ bit (s.cfg.ykcoreConfig.flags field) i ∨
        ∃ p ∈ flagsMap field, Wanted L (modeOf rawMode) options field p ∧
          p.capability s.cfg = true ∧ bit p.flag i) :
    ImportEnds L jobj s (.ok ⟨⟩,
      ⟨((s.cfg.withCommand command).seeded L (modeOf rawMode) options).withFlags f, e⟩)

theorem importDocument_ends (L : JsonC) (jobj : Json) (s : YkpState) :
    ImportEnds L jobj s (importDocument L jobj s) := by
  by_cases hacc : ∃ yprod jmode options command, Parts jobj yprod jmode options ∧
      importedCommand L yprod s.cfg = some command
  swap
  · have hnone : ∀ yprod jmode options, Parts jobj yprod jmode options →
        importedCommand L yprod s.cfg = none := fun y m o hp =>
      Option.eq_none_iff_forall_ne_some.2 fun command hc => hacc ⟨y, m, o, command, hp, hc⟩
    rw [importDocument_invalid hnone]
    exact .refused hnone
  obtain ⟨yprod, jmode, options, command, hp, hc⟩ := hacc
  rcases hm : L.getString jmode with _ | rawMode
  · rw [Proc.run_eq (importDocument_noMode hp hc hm)]
    exact .noMode hp hc hm
  by_cases hr : modeOf rawMode = modeOathHotp ∧ RandomSeed L options
  · obtain ⟨f, hrun, hf⟩ := importDocument_random hp hc hm hr.1 hr.2
    rw [hrun]
    exact .random hp hc (hm.trans (congrArg some (modeOf_eq_oathHotp.1 hr.1))) hr.2 hf
  · obtain ⟨f, e, hrun, hf⟩ := importDocument_ok hp hc hm hr
    rw [hrun]
    exact .imported hp hc hm (by rwa [modeOf_eq_oathHotp] at hr) hf

/-! ## Honouring a document -/

/-- A target that is neither slot, or a random seed for a one-time password. -/
def Declined (L : JsonC) (yprod jmode options : Json) : Prop :=
  (∃ j, yprod.get "targetConfig" = some j ∧ L.getInt j ≠ 1 ∧ L.getInt j ≠ 2) ∨
    L.getString jmode = some "oathHOTP" ∧ RandomSeed L options

theorem importedCommand_eq_none_iff (h0 : c.command = 0) : importedCommand L yprod c = none ↔
    ∃ j, yprod.get "targetConfig" = some j ∧ L.getInt j ≠ 1 ∧ L.getInt j ≠ 2 := by
  unfold importedCommand targetCommand
  rcases ht : yprod.get "targetConfig" with _ | j
  · simp
  by_cases h1 : L.getInt j = 1
  · simp [h0, h1]
  by_cases h2 : L.getInt j = 2
  · have h21 : (2 : Int32) ≠ 1 := by decide
    simp [h0, h2, h21]
  · simp [h1, h2]

/-- An import into a cleared configuration without a command returns 0, or returns 1 and has
honoured the document, if and only if the document is one that the import declines, or one of
which the firmware has everything. -/
theorem import_honours_iff (L : JsonC) {c : YkpConfig}
    (hclear : ∀ field, c.ykcoreConfig.flags field = 0) (h0 : c.command = 0)
    (ykpErrno : Option YkpErr) {buf text : List Char} (hbuf : CString.read buf = some text) :
    let run := ykpImportConfig L buf ykpFormatYcfg ⟨c, ykpErrno⟩
    (run.1 = .fail ∨ run.1 = .ok ⟨⟩ ∧ ∃ yprod jmode options,
        Parts (L.tokenerParse text) yprod jmode options ∧
          Honoured L yprod jmode options run.2) ↔
      ∀ yprod jmode options, Parts (L.tokenerParse text) yprod jmode options →
        Declined L yprod jmode options ∨ Honourable L yprod jmode options c := by
  intro run
  have hrun : run = importDocument L (L.tokenerParse text) ⟨c, ykpErrno⟩ := by
    show ykpImportConfig L buf ykpFormatYcfg ⟨c, ykpErrno⟩ = _
    rw [ykpImportConfig_ycfg hbuf]
  generalize L.tokenerParse text = jobj at hrun ⊢
  have hends := importDocument_ends L jobj ⟨c, ykpErrno⟩
  rw [← hrun] at hends
  clear_value run
  cases hends with
  | refused hnone =>
    refine iff_of_true (.inl rfl) fun y m o hp => ?_
    exact .inl (.inl ((importedCommand_eq_none_iff h0).1 (hnone y m o hp)))
  | @noMode yprod jmode options command t hp hcmd hm =>
    refine iff_of_false (by simp) fun h => ?_
    rcases h yprod jmode options hp with (htarget | ⟨hoath, -⟩) | hhon
    · exact Option.some_ne_none _ (hcmd.symm.trans ((importedCommand_eq_none_iff h0).2 htarget))
    · simp [hm] at hoath
    · obtain ⟨m, -, hmode, -⟩ := hhon.mode
      simp [hm] at hmode
  | random hp hcmd hm hr hf =>
    refine iff_of_true (.inl rfl) fun y m o hp' => ?_
    obtain ⟨rfl, rfl, rfl⟩ := hp.unique hp'
    exact .inl (.inr ⟨hm, hr⟩)
  | @imported yprod jmode options command rawMode f e hp hcmd hm hr hf =>
    have hsets : Sets L (modeOf rawMode) options c f := by
      intro field i
      rw [hf, hclear, or_iff_right (bit_zero i)]
    have hdeclined : ¬ Declined L yprod jmode options := by
      rintro (htarget | ⟨hoath, hrandom⟩)
      · exact Option.some_ne_none _ (hcmd.symm.trans ((importedCommand_eq_none_iff h0).2 htarget))
      · exact hr ⟨Option.some.inj (hm.symm.trans hoath), hrandom⟩
    have hhon := honoured_iff h0 hcmd hm (s := ⟨_, e⟩) rfl hsets
    constructor
    · rintro (hfail | ⟨-, y, m, o, hp', h⟩) y' m' o' hp''
      · cases hfail
      · obtain ⟨rfl, rfl, rfl⟩ := hp.unique hp'
        obtain ⟨rfl, rfl, rfl⟩ := hp.unique hp''
        exact .inr (hhon.1 h)
    · intro h
      have hall := (h yprod jmode options hp).resolve_left hdeclined
      exact .inr ⟨rfl, yprod, jmode, options, hp, hhon.2 hall⟩

/-! ## Leaving the configuration alone -/

/-- The target is a slot, and no other than the one that has been chosen. -/
def TargetAccepted (L : JsonC) (yprod : Json) (c : YkpConfig) : Prop :=
  ∀ j, yprod.get "targetConfig" = some j →
    ∃ k, targetCommand (L.getInt j) = some k ∧ (c.command = 0 ∨ c.command = k)

/-- No command has been chosen, and the target is a slot that the firmware has. -/
def TargetChosen (L : JsonC) (yprod : Json) (c : YkpConfig) : Prop :=
  c.command = 0 ∧ ∃ j k, yprod.get "targetConfig" = some j ∧
    targetCommand (L.getInt j) = some k ∧ commandError c k = none

theorem importedCommand_of_accepted (h : TargetAccepted L yprod c) :
    ∃ command, importedCommand L yprod c = some command ∧
      (command = c.command ↔ ¬ TargetChosen L yprod c) := by
  unfold importedCommand TargetChosen
  rcases ht : yprod.get "targetConfig" with _ | j
  · exact ⟨c.command, rfl, by simp⟩
  obtain ⟨k, hk, hor⟩ := h j ht
  have hk0 : k ≠ 0 := by
    unfold targetCommand at hk
    split_ifs at hk <;> obtain rfl := Option.some.inj hk <;> decide
  by_cases h0 : c.command = 0
  · refine ⟨if commandError c k = none then k else 0, by simp [hk, h0], ?_⟩
    by_cases herr : commandError c k = none <;> simp [h0, hk, herr, hk0]
  · obtain rfl : c.command = k := hor.resolve_left h0
    exact ⟨c.command, by simp [hk, h0], by simp [h0]⟩

theorem importedCommand_eq_none (h : ¬ TargetAccepted L yprod c) :
    importedCommand L yprod c = none := by
  unfold importedCommand
  rcases ht : yprod.get "targetConfig" with _ | j
  · exact absurd (fun j hj => by simp [ht] at hj) h
  rcases hk : targetCommand (L.getInt j) with _ | k
  · simp [hk]
  · have hne : ¬ (c.command = 0 ∨ c.command = k) := by
      refine fun hor => h fun j' hj' => ?_
      obtain rfl := Option.some.inj (ht.symm.trans hj')
      exact ⟨k, hk, hor⟩
    rw [not_or] at hne
    simp [hk, hne]

/-- A random seed is asked for in a document that is accepted up to there, and something before it
has been stored: the command, or a flag of the mode that was not set. -/
def HalfImported (L : JsonC) (jobj : Json) (c : YkpConfig) : Prop :=
  ∃ yprod jmode options, Parts jobj yprod jmode options ∧ TargetAccepted L yprod c ∧
    L.getString jmode = some "oathHOTP" ∧ RandomSeed L options ∧
    (TargetChosen L yprod c ∨ capabilityHasOath c = true ∧
      (c.ykcoreConfig.tktFlags &&& tktflagOathHotp ≠ tktflagOathHotp ∨
        DigitsEight L options ∧
          c.ykcoreConfig.cfgFlags &&& cfgflagOathHotp8 ≠ cfgflagOathHotp8))

theorem withFlags_eq_self {f : FlagField → UInt8}
    (h : ∀ field, f field = c.ykcoreConfig.flags field) : c.withFlags f = c := by
  rw [funext h]
  rfl

/-- The flags of a one-time password that is not set up yet. -/
theorem oathFlags_unchanged_iff {f : FlagField → UInt8}
    (hf : ∀ field i, bit (f field) i ↔ bit (c.ykcoreConfig.flags field) i ∨
      ∃ p ∈ flagsMap field, ByMode L modeOathHotp options field p ∧ p.capability c = true ∧
        bit p.flag i) :
    (∀ field, f field = c.ykcoreConfig.flags field) ↔ ¬ (capabilityHasOath c = true ∧
      (c.ykcoreConfig.tktFlags &&& tktflagOathHotp ≠ tktflagOathHotp ∨
        DigitsEight L options ∧
          c.ykcoreConfig.cfgFlags &&& cfgflagOathHotp8 ≠ cfgflagOathHotp8)) := by
  have hby : ∀ field p, ByMode L modeOathHotp options field p ↔
      (field, p.flagText) = (.tkt, "OATH_HOTP") ∨
        DigitsEight L options ∧ (field, p.flagText) = (.cfg, "OATH_HOTP8") := fun field p => by
    rw [ByMode, modeFlags, if_pos rfl, List.mem_singleton]
    simp
  constructor
  · rintro h ⟨hcap, hne | ⟨hd, hne⟩⟩
    · refine hne (and_eq_iff.2 fun i hi => ?_)
      have hnew : bit (f .tkt) i := (hf .tkt i).2
        (.inr ⟨ticketFlagsMap[7], List.getElem_mem _, (hby _ _).2 (.inl rfl), hcap, hi⟩)
      rwa [h] at hnew
    · refine hne (and_eq_iff.2 fun i hi => ?_)
      have hnew : bit (f .cfg) i := (hf .cfg i).2
        (.inr ⟨configFlagsMap[4], List.getElem_mem _, (hby _ _).2 (.inr ⟨hd, rfl⟩), hcap, hi⟩)
      rwa [h] at hnew
  · intro h field
    refine eq_of_bit fun i => ?_
    rw [hf]
    refine or_iff_left_of_imp ?_
    rintro ⟨p, hp, hw, hcap, hi⟩
    rcases (hby field p).1 hw with ht | ⟨hd, ht⟩
    · rw [Prod.mk.injEq] at ht
      obtain ⟨rfl, ht⟩ := ht
      obtain rfl := eq_of_flagText .tkt 7 hp rfl ht
      by_contra hn
      exact h ⟨hcap, .inl fun hset => hn (and_eq_iff.1 hset i hi)⟩
    · rw [Prod.mk.injEq] at ht
      obtain ⟨rfl, ht⟩ := ht
      obtain rfl := eq_of_flagText .cfg 4 hp rfl ht
      by_contra hn
      exact h ⟨hcap, .inr ⟨hd, fun hset => hn (and_eq_iff.1 hset i hi)⟩⟩

theorem importDocument_atomic_iff {ykpErrno : Option YkpErr} {run : Ret Unit × YkpState}
    (hdoc : run = importDocument L jobj ⟨c, ykpErrno⟩) :
    (run.1 = .fail → run.2.cfg = c) ↔ ¬ HalfImported L jobj c := by
  have hnot : (∀ yprod jmode options, Parts jobj yprod jmode options → TargetAccepted L yprod c →
      L.getString jmode = some "oathHOTP" → ¬ RandomSeed L options) → ¬ HalfImported L jobj c := by
    rintro h ⟨y, m, o, hp, ht, hm, hr, -⟩
    exact h y m o hp ht hm hr
  have hends := importDocument_ends L jobj ⟨c, ykpErrno⟩
  rw [← hdoc] at hends
  cases hends with
  | refused hnone =>
    refine iff_of_true (fun _ => rfl) (hnot fun y m o hp ht => ?_)
    obtain ⟨command, hcmd, -⟩ := importedCommand_of_accepted ht
    exact absurd ((hnone y m o hp).symm.trans hcmd) (by simp)
  | @noMode yprod jmode options command t hp hcmd hm =>
    refine iff_of_true (by simp) (hnot fun y m o hp' _ hm' => ?_)
    rw [(hp.unique hp').2.1, hm] at hm'
    cases hm'
  | @imported yprod jmode options command rawMode f e hp hcmd hm hr hf =>
    refine iff_of_true (by simp) (hnot fun y m o hp' _ hm' hr' => hr ⟨?_, ?_⟩)
    · rw [(hp.unique hp').2.1, hm] at hm'
      exact Option.some.inj hm'
    · rwa [(hp.unique hp').2.2] at hr'
  | @random yprod jmode options command f hp hcmd hm hr hf =>
    have ht : TargetAccepted L yprod c := by
      by_contra hnot
      exact Option.some_ne_none _ (hcmd.symm.trans (importedCommand_eq_none hnot))
    have hchosen : command = c.command ↔ ¬ TargetChosen L yprod c := by
      obtain ⟨command', hcmd', hchosen⟩ := importedCommand_of_accepted ht
      rwa [← Option.some.inj (hcmd.symm.trans hcmd')] at hchosen
    have hsame : (c.withCommand command).withFlags f = c ↔
        command = c.command ∧ ∀ field, f field = c.ykcoreConfig.flags field := by
      constructor
      · intro h
        refine ⟨congrArg YkpConfig.command h, fun field => ?_⟩
        rw [← congrArg (fun c => c.ykcoreConfig.flags field) h, YkpConfig.withFlags_flags]
      · rintro ⟨rfl, h⟩
        exact withFlags_eq_self h
    have hhalf : HalfImported L jobj c ↔ TargetChosen L yprod c ∨ capabilityHasOath c = true ∧
        (c.ykcoreConfig.tktFlags &&& tktflagOathHotp ≠ tktflagOathHotp ∨
          DigitsEight L options ∧
            c.ykcoreConfig.cfgFlags &&& cfgflagOathHotp8 ≠ cfgflagOathHotp8) := by
      constructor
      · rintro ⟨y, m, o, hp', -, -, -, h⟩
        obtain ⟨rfl, rfl, rfl⟩ := hp.unique hp'
        exact h
      · exact fun h => ⟨yprod, jmode, options, hp, ht, hm, hr, h⟩
    rw [hhalf, not_or, ← hchosen, ← oathFlags_unchanged_iff hf, ← hsame]
    exact ⟨fun h => h rfl, fun h _ => h⟩

/-- An import that returns 0 has left the configuration as it was, if and only if it does not
refuse a random seed behind something it has stored. -/
theorem import_atomic_iff (L : JsonC) (c : YkpConfig) (ykpErrno : Option YkpErr) (buf : List Char)
    (format : Int32) :
    let run := ykpImportConfig L buf format ⟨c, ykpErrno⟩
    (run.1 = .fail → run.2.cfg = c) ↔
      ¬ (format = ykpFormatYcfg ∧ ∃ text, CString.read buf = some text ∧
        HalfImported L (L.tokenerParse text) c) := by
  intro run
  by_cases hy : format = ykpFormatYcfg
  swap
  · refine iff_of_true (fun _ => ?_) fun h => hy h.1
    show (ykpImportConfig L buf format ⟨c, ykpErrno⟩).2.cfg = c
    rw [ykpImportConfig, if_neg hy]
    split_ifs <;> rfl
  subst hy
  rcases hbuf : CString.read buf with _ | text
  · have hfault : run.1 = .fault := by
      show (ykpImportConfig L buf ykpFormatYcfg ⟨c, ykpErrno⟩).1 = .fault
      rw [ykpImportConfig, if_pos rfl, ykpJsonImportCfg, hbuf]
      rfl
    exact iff_of_true (by simp [hfault]) (by simp)
  · have hrun : run = importDocument L (L.tokenerParse text) ⟨c, ykpErrno⟩ := by
      show ykpImportConfig L buf ykpFormatYcfg ⟨c, ykpErrno⟩ = _
      rw [ykpImportConfig_ycfg hbuf]
    rw [importDocument_atomic_iff hrun]
    simp

/-! ## What an accepted import leaves -/

/-- The seed and the flags of a document, in a configuration that has its command. -/
structure Imported (L : JsonC) (mode : UInt8) (options : Json) (c : YkpConfig) (s : YkpState) :
    Prop where
  cfg : s.cfg = (c.seeded L mode options).withFlags s.cfg.ykcoreConfig.flags
  sets : Sets L mode options c s.cfg.ykcoreConfig.flags

theorem Imported.command {mode : UInt8} {s : YkpState} (h : Imported L mode options c s) :
    s.cfg.command = c.command := by
  rw [h.cfg]
  exact YkpConfig.seeded_command c

theorem importedCommand_cases {command : UInt8} (h : importedCommand L yprod c = some command) :
    command = c.command ∨ c.command = 0 ∧ command ∈ [0, slotConfig, slotConfig2] := by
  unfold importedCommand targetCommand at h
  rcases ht : yprod.get "targetConfig" with _ | j <;> rw [ht] at h
  · exact .inl (Option.some.inj h).symm
  · dsimp only at h
    split at h
    · cases h
    · split_ifs at * <;> simp_all

theorem exists_imported {e : Option YkpErr} {s : YkpState}
    (hclear : ∀ field, c.ykcoreConfig.flags field = 0)
    (hok : importDocument L jobj ⟨c, e⟩ = (.ok ⟨⟩, s)) :
    ∃ yprod jmode options rawMode command, Parts jobj yprod jmode options ∧
      L.getString jmode = some rawMode ∧ importedCommand L yprod c = some command ∧
        Imported L (modeOf rawMode) options (c.withCommand command) s := by
  have hends := importDocument_ends L jobj ⟨c, e⟩
  rw [hok] at hends
  cases hends with
  | @imported yprod jmode options command rawMode f e' hp hcmd hm hr hf =>
    have hflags : (((c.withCommand command).seeded L (modeOf rawMode) options).withFlags
        f).ykcoreConfig.flags = f := funext fun field => YkpConfig.withFlags_flags _ f field
    refine ⟨yprod, jmode, options, rawMode, command, hp, hm, hcmd, rfl, fun field i => ?_⟩
    rw [hflags, hf, hclear, or_iff_right (bit_zero i)]
    refine exists_congr fun p => and_congr_right fun hp => ?_
    rw [capability_congr (c.withCommand_version command) field p hp]

theorem exists_imported_of_ne {e : Option YkpErr} {s : YkpState}
    (hclear : ∀ field, c.ykcoreConfig.flags field = 0) (h0 : c.command ≠ 0)
    (hok : importDocument L jobj ⟨c, e⟩ = (.ok ⟨⟩, s)) :
    ∃ yprod jmode options rawMode, Parts jobj yprod jmode options ∧
      L.getString jmode = some rawMode ∧ Imported L (modeOf rawMode) options c s := by
  obtain ⟨yprod, jmode, options, rawMode, command, hp, hm, hcmd, himp⟩ :=
    exists_imported hclear hok
  obtain rfl : command = c.command := (importedCommand_cases hcmd).resolve_right fun h => h0 h.1
  exact ⟨yprod, jmode, options, rawMode, hp, hm, himp⟩

end Results

section Runs

open ScriptedHost (env)
open ScriptedJson (jsonC memory text)

/-- A document of a one-time password with its options. -/
def oathDocument (options : List (String × Json)) : Json :=
  .object [("yubiProdConfig", .object [("mode", .string "oathHOTP"), ("options", .object options)])]

theorem oathDocument_parts (options : List (String × Json)) : Parts (oathDocument options)
    (.object [("mode", .string "oathHOTP"), ("options", .object options)]) (.string "oathHOTP")
    (.object options) :=
  ⟨rfl, rfl, rfl, rfl⟩

theorem import_honours_iff_digits :
    let doc := oathDocument [("oathDigits", .int 8), ("randomSeed", .boolean false)]
    let c := (allocated (env 2 4 0).st none).cfg
    let run := ykpImportConfig (jsonC [doc]) (memory doc) ykpFormatYcfg ⟨c, none⟩
    (run.1 = .fail ∨ run.1 = .ok ⟨⟩ ∧ ∃ yprod jmode options,
        Parts ((jsonC [doc]).tokenerParse (text doc)) yprod jmode options ∧
          Honoured (jsonC [doc]) yprod jmode options run.2) ↔
      ∀ yprod jmode options, Parts ((jsonC [doc]).tokenerParse (text doc)) yprod jmode options →
        Declined (jsonC [doc]) yprod jmode options ∨
          Honourable (jsonC [doc]) yprod jmode options c := by
  intro doc c
  exact import_honours_iff (jsonC [doc]) (fun field => by cases field <;> rfl) rfl none
    (ScriptedJson.read_memory doc)

/-- A seed without `randomSeed` is not read. -/
theorem import_seed_dropped :
    let doc := oathDocument [("fixedSeedvalue", .int 32)]
    let run := ykpImportConfig (jsonC [doc]) (memory doc) ykpFormatYcfg
      (allocated (env 2 4 0).st none)
    run.1 = .ok ⟨⟩ ∧ ykpGetOathImf run.2.cfg = 0 ∧
      ∀ yprod jmode options, Parts doc yprod jmode options →
        ¬ Honoured (jsonC [doc]) yprod jmode options run.2 := by
  intro doc run
  have himf : ykpGetOathImf run.2.cfg = 0 := by decide +kernel
  refine ⟨by decide +kernel, himf, fun yprod jmode options hp h => ?_⟩
  obtain ⟨rfl, rfl, rfl⟩ := (oathDocument_parts _).unique hp
  have hseed := h.seed rfl (.int 32) rfl
  rw [himf] at hseed
  exact absurd hseed (by decide)

/-- A random seed is refused, and the mode has been set. -/
theorem import_half_done :
    let doc := oathDocument [("randomSeed", .boolean true)]
    let run := ykpImportConfig (jsonC [doc]) (memory doc) ykpFormatYcfg
      (allocated (env 2 4 0).st none)
    run.1 = .fail ∧ run.2.cfg ≠ (allocated (env 2 4 0).st none).cfg ∧
      run.2.cfg.ykcoreConfig.tktFlags = tktflagOathHotp := by
  decide +kernel

end Runs

end YkPers
