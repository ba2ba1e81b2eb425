import YkPers.Proofs.ArgsToConfig
import YkPers.Proofs.Import
import YkPers.Proofs.Ykpersonalize

/-!
# What a run has gone through at its commit

Each step over the options ends the run where it fails, but for `set_oath_id`, whose failure is
logged and goes by (`prepare_ok`). What the commit asks about is what the options said
(`argsToConfig_said`).
-/

namespace YkPers

open Proc (Moves attempt)

/-! ## What the options said -/

section Said

variable {E : ArgsEnv} {s s' : ArgsState}

/-- `-d`, `-y` and `-s` are known as far as the options have come. -/
structure Said (os : List Getopt.Scanned) (s : ArgsState) : Prop where
  dryRun : s.dryRun = true ↔ .flag 'd' ∈ os
  autocommit : s.autocommit = true ↔ .flag 'y' ∈ os
  outfname : s.outfname = none ↔ ∀ name, .arg 's' name ∉ os

theorem gates_loopFrame : LoopFrame (fun _ _ => True) SameGates where
  onYkp := ⟨fun _ _ _ _ _ => trivial, fun _ _ _ => trivial⟩
  trans _ _ _ h k := h.trans k
  same _ _ h := ⟨h.dryRun, h.autocommit, h.outfname⟩
  ykp _ _ _ := ⟨rfl, rfl, rfl⟩
  flag _ _ _ _ _ _ := trivial
  command _ _ _ := trivial
  clear _ := trivial
  any _ _ _ hd hy ho := ⟨hd, hy, ho⟩

/-- What is behind the loop leaves the strings alone. -/
theorem sameTexts : StepFrame (fun _ _ => True) SameTexts where
  transYkp _ _ _ _ _ := trivial
  cfg _ _ _ := trivial
  trans _ _ _ h k := h.trans k
  same _ _ h := h.toSameTexts
  ykp _ _ _ := ⟨rfl, rfl, rfl, rfl, rfl⟩

theorem Said.of_same {os : List Getopt.Scanned} (h : Said os s) (hs : SameGates s s') :
    Said os s' where
  dryRun := by rw [hs.dryRun, h.dryRun]
  autocommit := by rw [hs.autocommit, h.autocommit]
  outfname := by rw [hs.outfname, h.outfname]

theorem Said.handled {os : List Getopt.Scanned} {o : Getopt.Scanned} (hs : Said os s)
    (h : handle E o s = (.ok ⟨⟩, s')) : Said (os ++ [o]) s' := by
  rcases ho : gates o with _ | _
  · have hsame := hs.of_same ((gates_loopFrame.handle E ho).of_eq_ok h)
    have hd : .flag 'd' ≠ o := by rintro rfl; cases ho
    have hy : .flag 'y' ≠ o := by rintro rfl; cases ho
    have hout : ∀ name, .arg 's' name ≠ o := by rintro name rfl; cases ho
    constructor
    · simp [hsame.dryRun, hd]
    · simp [hsame.autocommit, hy]
    · simp [hsame.outfname, hout]
  · unfold gates at ho
    split at ho
    · obtain rfl := (Prod.mk.inj h).2
      refine ⟨by simp [hs.dryRun], by simp [hs.autocommit], ?_⟩
      exact iff_of_false (by simp) fun h => h _ (List.mem_append_right os List.mem_cons_self)
    · obtain rfl := (Prod.mk.inj h).2
      exact ⟨by simp, by simp [hs.autocommit], by simp [hs.outfname]⟩
    · obtain rfl := (Prod.mk.inj h).2
      exact ⟨by simp [hs.dryRun], by simp, by simp [hs.outfname]⟩
    · cases ho

theorem argsToConfig_said {fuel : ℕ} {argv : List (List Char)} {stdin : List Char}
    {scanCodes deviceInfo : List UInt8}
    (h : argsToConfig E fuel (.fresh argv stdin scanCodes deviceInfo) = (.ok ⟨⟩, s')) :
    Said (scans fuel (Getopt.start argv)) s' := by
  obtain ⟨t, u, v, ht, hu, hv, h⟩ := argsToConfig_parts h
  have hnil : Said [] { ArgsState.fresh argv stdin scanCodes deviceInfo with
      ykp := (ykpConfigureVersion E.st ⟨ykpAlloc, none⟩).2 } :=
    ⟨by simp [ArgsState.fresh], by simp [ArgsState.fresh], by simp [ArgsState.fresh]⟩
  have hsaid := optionLoop_scans (P := Said) (fun _ _ _ hs => hs.of_same ⟨rfl, rfl, rfl⟩)
    (fun _ _ _ _ hs h => hs.handled h) fuel [] hnil ht
  exact hsaid.of_same (frame_behindLoop gates_loopFrame.toFrame hu hv h)

end Said

/-! ## The steps behind the options -/

section Steps

variable {σ : Type} {U : Usb σ} {M : MainEnv} {m m' : MainState σ}

/-- A step that passed, of those that leave the flags alone behind `args_to_config`. -/
def Act.Passed (a : Act) : Prop :=
  a = .step .argsToConfig true ∨ a = .step .accessCode true ∨ a = .step .newAccessCode true

/-- Since `m` steps have passed, and the flags, the strings and what the commit asks about are as
before. -/
structure Passes (m m' : MainState σ) : Prop where
  logs : Logs Act.Passed m m'
  flags : SameFlags m.session.args.ykp m'.session.args.ykp
  gates : SameGates m.session.args m'.session.args
  texts : SameTexts m.session.args m'.session.args

theorem SameFlags.refl (s : YkpState) : SameFlags s s := ⟨rfl, rfl, fun _ => rfl⟩

theorem SameFlags.trans {a b c : YkpState} (h : SameFlags a b) (k : SameFlags b c) :
    SameFlags a c :=
  ⟨k.version.trans h.version, k.command.trans h.command,
    fun field => (k.flags field).trans (h.flags field)⟩

theorem SameFlags.of_cfg {s s' : YkpState} (h : s'.cfg = s.cfg) : SameFlags s s' := by
  constructor <;> rw [h]
  exact fun _ => rfl

theorem sameFlags_ykpFrame : YkpFrame SameFlags := ⟨fun _ _ _ h k => h.trans k, fun _ _ h => h⟩

theorem Passes.trans {a b c : MainState σ} (h : Passes a b) (k : Passes b c) : Passes a c :=
  ⟨h.logs.trans k.logs, h.flags.trans k.flags, h.gates.trans k.gates, h.texts.trans k.texts⟩

theorem Silent.passes (h : Silent m m') : Passes m m' :=
  ⟨.of_acts h.acts, .of_cfg h.cfg, h.gates, h.texts⟩

theorem Passes.of_step {step : OptionStep} (h : (Act.step step true).Passed) (m : MainState σ) :
    Passes m { m with acts := m.acts ++ [.step step true] } :=
  ⟨.single h rfl, .refl _, .refl _, .refl _⟩

theorem decodeAccessCode_ok {step : OptionStep} {code : List Char} {shown : String} {d : Decoded}
    (h : decodeAccessCode M step code shown m = (.ok d, m')) :
    m' = { m with acts := m.acts ++ [.step step true] } := by
  unfold decodeAccessCode at h
  obtain ⟨r, t, ht, h⟩ := Proc.bind_eq_ok.1 h
  obtain ⟨t', ht', rfl⟩ := optionStep_ok ht
  rcases r with _ | d'
  · obtain ⟨_, _, -, h⟩ := Proc.bind_eq_ok.1 h
    cases (Prod.mk.inj h).1
  · obtain rfl := (Prod.mk.inj h).2
    split_ifs at ht'
    · cases (Prod.mk.inj ht').1
    · obtain rfl := (Prod.mk.inj ht').2
      rfl

theorem passes_setAccessCode (d : Decoded) :
    Moves Passes (setAccessCode d : Proc (MainState σ) Unit) := by
  refine .bind (fun _ _ _ h k => h.trans k) (Moves.attempt fun m => ?_) fun _ m =>
    (Silent.refl m).passes
  exact ⟨.of_acts rfl, sameFlags_ykpFrame.setAccessCode _ _, ⟨rfl, rfl, rfl⟩, rfl, rfl, rfl, rfl,
    rfl⟩

theorem applyAccessCode_ok (h : applyAccessCode M m = (.ok ⟨⟩, m')) : Passes m m' := by
  unfold applyAccessCode at h
  rw [Proc.get_bind_run] at h
  rcases hc : m.session.args.accessCode with _ | code <;> rw [hc] at h
  · obtain rfl := (Prod.mk.inj h).2
    exact (Silent.refl m).passes
  · obtain ⟨d, t, ht, h⟩ := Proc.bind_eq_ok.1 h
    obtain rfl := decodeAccessCode_ok ht
    rw [Proc.modify_bind_run] at h
    have hset : Moves Passes (if m.session.args.newAccessCode.isNone then setAccessCode d
        else pure ⟨⟩ : Proc (MainState σ) Unit) :=
      .ite (passes_setAccessCode d) fun m => (Silent.refl m).passes
    have hp := hset.of_eq_ok h
    exact (Passes.of_step (.inr (.inl rfl)) m).trans ⟨hp.logs, hp.flags, hp.gates, hp.texts⟩

theorem applyNewAccessCode_ok (h : applyNewAccessCode M m = (.ok ⟨⟩, m')) : Passes m m' := by
  unfold applyNewAccessCode at h
  rw [Proc.get_bind_run] at h
  rcases hc : m.session.args.newAccessCode with _ | code <;> rw [hc] at h
  · obtain rfl := (Prod.mk.inj h).2
    exact (Silent.refl m).passes
  · obtain ⟨d, t, ht, h⟩ := Proc.bind_eq_ok.1 h
    obtain rfl := decodeAccessCode_ok ht
    exact (Passes.of_step (.inr (.inr rfl)) m).trans ((passes_setAccessCode d).of_eq_ok h)

theorem openOutput_none (h : openOutput M m = (.ok .none, m')) :
    m.session.args.outfname = none := by
  unfold openOutput at h
  rw [Proc.get_bind_run] at h
  rcases ho : m.session.args.outfname with _ | name
  · rfl
  · rw [ho] at h
    dsimp only at h
    rcases hw : M.writeFile name with _ | _ <;> rw [hw] at h
    · obtain ⟨_, _, -, h⟩ := Proc.bind_eq_ok.1 h
      cases (Prod.mk.inj h).1
    · cases (Prod.mk.inj h).1

theorem prepare_ok {fuel : ℕ} {keyIndex : ℤ} {inf : Option Input} {v : MainState σ}
    (h : prepare U M fuel keyIndex m = (.ok (inf, .none), v)) : ∃ st t t',
      parseOptions U M fuel keyIndex m = (.ok st, t) ∧ applyOathId U M st t = (.ok ⟨⟩, t') ∧
        Passes t' v ∧ v.session.args.outfname = none := by
  obtain ⟨st, t, ht, h⟩ := Proc.bind_eq_ok.1 h
  obtain ⟨_, t', ht', h⟩ := Proc.bind_eq_ok.1 h
  obtain ⟨_, a, ha, h⟩ := Proc.bind_eq_ok.1 h
  obtain ⟨_, b, hb, h⟩ := Proc.bind_eq_ok.1 h
  obtain ⟨_, c, hc, h⟩ := (silent_printSerial U st).bind_eq_ok h
  obtain ⟨_, d, hd, h⟩ := (silent_errFrame.printf _).bind_eq_ok h
  obtain ⟨_, e, he, h⟩ := (silent_errFrame.openInput M).bind_eq_ok h
  obtain ⟨outf, f, hf, h⟩ := Proc.bind_eq_ok.1 h
  obtain ⟨h1, rfl⟩ := Prod.mk.inj h
  obtain ⟨-, rfl⟩ := Prod.mk.inj (Ret.ok.inj h1)
  have hopen := (silent_errFrame.openOutput M).of_eq_ok hf
  refine ⟨st, t, t', ht, ht', ?_, hopen.gates.outfname.trans (openOutput_none hf)⟩
  have hsilent : Silent b f := ((hc.trans hd).trans he).trans hopen
  exact ((applyAccessCode_ok ha).trans (applyNewAccessCode_ok hb)).trans hsilent.passes

/-- Where no identifier is asked for, nothing happens; else the result is logged, and no more. -/
theorem applyOathId_ok {st : YkStatus} (h : applyOathId U M st m = (.ok ⟨⟩, m')) :
    m.session.args.oathid = [] ∧ m' = m ∨ m.session.args.oathid ≠ [] ∧ ∃ r s,
      attempt (setOathId (M.argsEnv st) U.toHost m.session.args.oathid) m.session = (.ok r, s) ∧
        m' = { m with session := s, acts := m.acts ++ [.step .setOathId r.isSome] } := by
  unfold applyOathId at h
  rw [Proc.get_bind_run] at h
  by_cases hid : m.session.args.oathid ≠ []
  · rw [if_pos hid] at h
    obtain ⟨r, t, ht, h⟩ := Proc.bind_eq_ok.1 h
    obtain rfl := (Prod.mk.inj h).2
    obtain ⟨u, hu, rfl⟩ := optionStep_ok ht
    rw [onSession, Proc.attempt_zoom] at hu
    obtain ⟨h1, rfl⟩ := Prod.mk.inj hu
    exact .inr ⟨hid, r, _, Proc.run_eq h1, rfl⟩
  · rw [if_neg hid] at h
    exact .inl ⟨not_not.1 hid, (Prod.mk.inj h).2.symm⟩

/-! ## The options -/

/-- The variables of the command line are as before. -/
def SameArgs (m m' : MainState σ) : Prop := m'.session.args = m.session.args

theorem orErrOne_ok {α : Type} {x : Yk σ α} {a : α} (h : orErrOne x m = (.ok a, m')) :
    SameArgs m m' := by
  obtain ⟨r, t, ht, h⟩ := Proc.bind_eq_ok.1 h
  have hargs : SameArgs m t := by
    rw [onSession, Proc.attempt_zoom, onKey, Proc.attempt_zoom] at ht
    obtain rfl := (Prod.mk.inj ht).2
    rfl
  rcases r with _ | a
  · obtain ⟨_, _, -, h⟩ := Proc.bind_eq_ok.1 h
    cases (Prod.mk.inj h).1
  · obtain rfl := (Prod.mk.inj h).2
    exact hargs

theorem openKey_ok {keyIndex : ℤ} {st : YkStatus} (h : openKey U keyIndex m = (.ok st, m')) :
    SameArgs m m' := by
  have hprint : Moves SameArgs (printStatus st : Proc (MainState σ) Unit) :=
    .bind (fun _ _ _ h k => k.trans h) (fun _ => rfl) fun _ => .ite (fun _ => rfl) fun _ => rfl
  have hcheck : Moves SameArgs (checkFirmware st : Proc (MainState σ) Unit) :=
    .ite (fun _ => rfl) <| .get_bind fun _ => .ite (fun _ => rfl) fun _ => rfl
  obtain ⟨_, a, ha, h⟩ := Proc.bind_eq_ok.1 h
  obtain ⟨_, b, hb, h⟩ := Proc.bind_eq_ok.1 h
  rw [Proc.modify_bind_run] at h
  obtain ⟨st', c, hc, h⟩ := Proc.bind_eq_ok.1 h
  obtain ⟨_, d, hd, h⟩ := Proc.bind_eq_ok.1 h
  obtain ⟨_, e, he, h⟩ := Proc.bind_eq_ok.1 h
  obtain ⟨h1, rfl⟩ := Prod.mk.inj h
  obtain rfl := Ret.ok.inj h1
  have hab : SameArgs m b := (orErrOne_ok hb).trans (orErrOne_ok ha)
  have hcd : SameArgs c e := (hcheck.of_eq_ok he).trans (hprint.of_eq_ok hd)
  exact (hcd.trans (orErrOne_ok hc)).trans hab

theorem parseOptions_ok {fuel : ℕ} {keyIndex : ℤ} {st : YkStatus}
    (h : parseOptions U M fuel keyIndex m = (.ok st, m')) :
    argsToConfig (M.argsEnv st) fuel m.session.args = (.ok ⟨⟩, m'.session.args) ∧
      m'.acts = m.acts ++ [.step .argsToConfig true] := by
  obtain ⟨st', t, ht, h⟩ := Proc.bind_eq_ok.1 h
  obtain ⟨_, u, hu, h⟩ := Proc.bind_eq_ok.1 h
  obtain ⟨h1, rfl⟩ := Prod.mk.inj h
  obtain rfl := Ret.ok.inj h1
  obtain ⟨r, v, hv, h⟩ := Proc.bind_eq_ok.1 hu
  rcases r with _ | _
  · cases (Prod.mk.inj h).1
  obtain rfl := (Prod.mk.inj h).2
  obtain ⟨w, hw, rfl⟩ := optionStep_ok hv
  rw [onSession, Proc.attempt_zoom, onArgs, Proc.attempt_zoom] at hw
  obtain ⟨h1, rfl⟩ := Prod.mk.inj hw
  have hargs : t.session.args = m.session.args := openKey_ok ht
  refine ⟨?_, congrArg (· ++ _) ((silent_openKey U keyIndex).of_eq_ok ht).acts⟩
  rw [← hargs]
  exact Proc.of_attempt_ok (Proc.run_eq h1)

/-! ## The import -/

theorem importDocument_of_ok {L : JsonC} {buf text : List Char} {format : Int32} {s s' : YkpState}
    (hbuf : CString.read buf = some text) (h : ykpImportConfig L buf format s = (.ok ⟨⟩, s')) :
    importDocument L (L.tokenerParse text) s = (.ok ⟨⟩, s') := by
  unfold ykpImportConfig at h
  split_ifs at h
  · rwa [ykpJsonImportCfg, hbuf] at h
  · cases (Prod.mk.inj h).1
  · cases (Prod.mk.inj h).1

/-- From `v`, a text has been imported into the cleared configuration. -/
structure ImportedText (M : MainEnv) (text : List Char) (v u : MainState σ) : Prop where
  acts : u.acts = v.acts ++ [.step (.importConfig text) true]
  run : ∃ e, importDocument M.jsonC (M.jsonC.tokenerParse text) ⟨v.cfg.withFlags fun _ => 0, e⟩
    = (.ok ⟨⟩, u.session.args.ykp)
  gates : SameGates v.session.args u.session.args
  texts : SameTexts v.session.args u.session.args

theorem importFile_ok {inf : Option Input} {u v : MainState σ}
    (h : importFile M inf v = (.ok ⟨⟩, u)) : u = v ∨ ∃ text, ImportedText M text v u := by
  rcases inf with _ | inf
  · exact .inl (Prod.mk.inj h).2.symm
  refine .inr ?_
  obtain ⟨_, a, ha, h⟩ := Proc.bind_eq_ok.1 h
  obtain rfl := (Prod.mk.inj ha).2
  obtain ⟨bytes, b, hb, h⟩ := (silent_failFrame.fread inf).bind_eq_ok h
  by_cases h0 : bytes = []
  · rw [if_pos h0] at h
    cases (Prod.mk.inj h).1
  rw [if_neg h0, Proc.modify_bind_run] at h
  obtain ⟨text, c, hc, h⟩ := Proc.bind_eq_ok.1 h
  unfold dataText at hc
  rw [Proc.get_bind_run] at hc
  rcases hread : CString.read (Buffer.store b.data 0 bytes) with _ | text'
  · rw [hread] at hc
    cases (Prod.mk.inj hc).1
  · rw [hread] at hc
    obtain ⟨h1, rfl⟩ := Prod.mk.inj hc
    obtain rfl := Ret.ok.inj h1
    rw [Proc.get_bind_run] at h
    obtain ⟨r, d, hd, h⟩ := Proc.bind_eq_ok.1 h
    rcases r with _ | _
    · cases (Prod.mk.inj h).1
    obtain rfl := (Prod.mk.inj h).2
    obtain ⟨e, he, rfl⟩ := optionStep_ok hd
    rw [onConfig, onSession, Proc.attempt_zoom, onArgs, Proc.attempt_zoom, Proc.attempt_zoom] at he
    obtain ⟨h1, rfl⟩ := Prod.mk.inj he
    refine ⟨text', congrArg (· ++ _) hb.acts, ⟨b.session.args.ykp.ykpErrno, ?_⟩,
      ⟨hb.gates.dryRun, hb.gates.autocommit, hb.gates.outfname⟩, hb.texts.ndefType, hb.texts.ndef,
      hb.texts.accessCode, hb.texts.newAccessCode, hb.texts.oathid⟩
    have hcfg : v.cfg.withFlags (fun _ => 0) = b.cfg := hb.cfg.symm
    rw [hcfg]
    exact importDocument_of_ok hread (Proc.of_attempt_ok (Proc.run_eq h1))

end Steps

end YkPers
