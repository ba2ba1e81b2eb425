import YkPers.Lib.Simulation
import YkPers.Proofs.Flags
import YkPers.Proofs.Refusals

/-!
# One command line for two keys

`args_to_config` looks at the version of a key only to refuse what the key cannot do. So for two
keys of any versions it makes the same configuration, unless one of them is refused
(`argsToConfig_anyKey`). A key that has lost nothing refuses nothing that the other takes
(`argsToConfig_upgrade`).
-/

namespace YkPers

open Proc (Sim SimUnless)

abbrev Version := UInt8 × UInt8 × UInt8

def YkpConfig.withVersion (v : Version) (c : YkpConfig) : YkpConfig :=
  { c with ykMajorVersion := v.1, ykMinorVersion := v.2.1, ykBuildVersion := v.2.2 }

@[simp] theorem version_withVersion (v : Version) (c : YkpConfig) : (c.withVersion v).version = v :=
  rfl

def YkpState.withVersion (v : Version) (s : YkpState) : YkpState :=
  { s with cfg := s.cfg.withVersion v }

def ArgsState.withVersion (v : Version) (s : ArgsState) : ArgsState :=
  { s with ykp := s.ykp.withVersion v }

/-- A key has been found too old, or else of the wrong version. -/
def YkpState.Refused (s : YkpState) : Prop :=
  s.ykpErrno = some .EYUBIKEYVER ∨ s.ykpErrno = some .EOLDYUBIKEY

theorem refused_error {e : YkpErr} (he : e = .EYUBIKEYVER ∨ e = .EOLDYUBIKEY) (s : YkpState) :
    (ykpError e s).2.Refused := he.imp (congrArg some) (congrArg some)

/-- The second key can do what the first can. -/
structure Covers (v v' : Version) : Prop where
  capability : ∀ c : YkpConfig, c.version = v → ∀ field, ∀ p ∈ flagsMap field,
    p.capability c = true → p.capability (c.withVersion v') = true
  oathImf : ∀ c : YkpConfig, c.version = v →
    capabilityHasOathImf c = true → capabilityHasOathImf (c.withVersion v') = true
  command : ∀ c : YkpConfig, c.version = v → ∀ command,
    commandError c command = none → commandError (c.withVersion v') command = none

/-- The same configuration for another key. -/
def OtherKey (v v' : Version) (s t : YkpState) : Prop := s.cfg.version = v ∧ t = s.withVersion v'

section Calls

variable {v v' : Version} {P : Prop} {α : Type}

/-- Two calls agree, unless one of the keys is refused; the second may be only where `P` says so. -/
abbrev Agree (v v' : Version) (P : Prop) (x y : Proc YkpState α) : Prop :=
  SimUnless (OtherKey v v') YkpState.Refused (fun t => P ∧ t.Refused) x y

theorem sim_store (f : YkConfig → YkConfig) : Sim (OtherKey v v') (ykpStore f) (ykpStore f) :=
  .modify fun _ _ h => ⟨h.1, by rw [h.2]; rfl⟩

theorem sim_error (e : YkpErr) : Sim (OtherKey v v') (ykpError e) (ykpError e) := by
  rintro s t ⟨hv, rfl⟩
  exact ⟨rfl, hv, rfl⟩

/-- What looks at a capability first. -/
theorem agree_guard {capability : YkpConfig → Bool} {x y : Proc YkpState Unit}
    (hP : P ∨ ∀ c, c.version = v → capability c = true → capability (c.withVersion v') = true)
    (hx : Agree v v' P x y) :
    Agree v v' P (do let s ← Proc.get; if capability s.cfg then x else ykpError .EYUBIKEYVER)
      (do let s ← Proc.get; if capability s.cfg then y else ykpError .EYUBIKEYVER) := by
  rintro s t ⟨hv, rfl⟩
  rw [Proc.get_bind_run, Proc.get_bind_run]
  by_cases hs : capability s.cfg = true
  · by_cases ht : capability (s.withVersion v').cfg = true
    · rw [if_pos hs, if_pos ht]
      exact hx _ _ ⟨hv, rfl⟩
    · rw [if_neg ht]
      exact .inr (.inr ⟨rfl, hP.resolve_right fun h => ht (h _ hv hs), .inl rfl⟩)
  · rw [if_neg hs]
    exact .inr (.inl ⟨rfl, .inl rfl⟩)

theorem agree_setter (hP : P ∨ Covers v v') {field : FlagField} {p : MapSt}
    (hp : p ∈ flagsMap field) (state : Bool) : Agree v v' P (p.setter state) (p.setter state) := by
  rw [setter_eq field p hp]
  exact agree_guard (hP.imp_right fun h c hc => h.capability c hc field p hp)
    (.of_sim (sim_store _))

theorem agree_setOathImf (hP : P ∨ Covers v v') (imf : ℕ) :
    Agree v v' P (ykpSetOathImf imf) (ykpSetOathImf imf) := by
  have hguard : ykpSetOathImf imf = (do
      let s ← Proc.get
      if capabilityHasOathImf s.cfg then
        if imf > 65535 * 16 then ykpError .EINVAL
        else if imf % 16 ≠ 0 then ykpError .EINVAL
        else ykpStore fun c => { c with
          uid := (c.uid.set 4 (UInt8.ofNat (imf / 16 / 256))).set 5 (UInt8.ofNat (imf / 16)) }
      else ykpError .EYUBIKEYVER) := by
    refine congrArg (Proc.get >>= ·) (funext fun s => ?_)
    by_cases h : capabilityHasOathImf s.cfg = true
    · rw [if_pos h, if_neg (not_not_intro h)]
    · rw [if_neg h, if_pos h]
  rw [hguard]
  exact agree_guard (hP.imp_right Covers.oathImf)
    (.ite (.of_sim (sim_error _)) (.ite (.of_sim (sim_error _)) (.of_sim (sim_store _))))

theorem sim_setCharfield (f : List UInt8 → YkConfig → YkConfig) (input : List UInt8) :
    Sim (OtherKey v v') (ykpSetCharfield vcheckAll f input) (ykpSetCharfield vcheckAll f input) :=
  sim_store (f input)

/-- A command is refused for the version, or it is none of any key. -/
theorem commandError_some {c : YkpConfig} {command : UInt8} {e : YkpErr}
    (h : commandError c command = some e) : (e = .EYUBIKEYVER ∨ e = .EOLDYUBIKEY)
      ∨ ∀ c', commandError c' command = some e := by
  unfold commandError at h
  repeat' split at h
  all_goals cases h
  all_goals first
    | exact .inl (.inl rfl)
    | exact .inl (.inr rfl)
    | skip
  -- only the default is left, where no command has matched
  exact .inr fun c' => by simp only [commandError, *, if_false]

theorem agree_configureCommand (hP : P ∨ Covers v v') (command : UInt8) :
    Agree v v' P (ykpConfigureCommand command) (ykpConfigureCommand command) := by
  rintro s t ⟨hv, rfl⟩
  rw [ykpConfigureCommand, Proc.get_bind_run, Proc.get_bind_run]
  have hother : (s.withVersion v').cfg = s.cfg.withVersion v' := rfl
  rw [hother]
  rcases hs : commandError s.cfg command with _ | e
  · rcases ht : commandError (s.cfg.withVersion v') command with _ | e
    · exact .inl ⟨rfl, hv, rfl⟩
    · obtain he | he := commandError_some ht
      · refine .inr (.inr ⟨rfl, hP.resolve_right fun h => ?_, refused_error he _⟩)
        rw [h.command _ hv _ hs] at ht
        cases ht
      · rw [he] at hs
        cases hs
  · obtain he | he := commandError_some hs
    · exact .inr (.inl ⟨rfl, refused_error he _⟩)
    · rw [he]
      exact .inl ⟨rfl, hv, rfl⟩

end Calls

/-! ## The command line -/

/-- The same state of the command line for another key. -/
def OtherArgs (v v' : Version) (s t : ArgsState) : Prop :=
  s.ykp.cfg.version = v ∧ t = s.withVersion v'

section Steps

variable {v v' : Version} {P : Prop} {α : Type}

abbrev AgreeArgs (v v' : Version) (P : Prop) (x y : Proc ArgsState α) : Prop :=
  SimUnless (OtherArgs v v') (fun s => s.ykp.Refused) (fun t => P ∧ t.ykp.Refused) x y

theorem sim_modify {f : ArgsState → ArgsState}
    (hv : ∀ s, (f s).ykp.cfg.version = s.ykp.cfg.version)
    (hf : ∀ s, f (s.withVersion v') = (f s).withVersion v') :
    Sim (OtherArgs v v') (Proc.modify f) (Proc.modify f) :=
  .modify fun s _ h => ⟨(hv s).trans h.1, by rw [h.2, hf]⟩

/-- What looks at the state sees the same in both, but for the version. -/
theorem sim_get {f g : ArgsState → Proc ArgsState α}
    (h : ∀ s, s.ykp.cfg.version = v → Sim (OtherArgs v v') (f s) (g (s.withVersion v'))) :
    Sim (OtherArgs v v') (Proc.get >>= f) (Proc.get >>= g) :=
  .get_bind fun s _ hst => hst.2 ▸ h s hst.1

theorem agree_get {f g : ArgsState → Proc ArgsState α}
    (h : ∀ s, s.ykp.cfg.version = v → AgreeArgs v v' P (f s) (g (s.withVersion v'))) :
    AgreeArgs v v' P (Proc.get >>= f) (Proc.get >>= g) :=
  .get_bind fun s _ hst => hst.2 ▸ h s hst.1

theorem sim_fprintf (msg : String) : Sim (OtherArgs v v') (fprintf msg) (fprintf msg) :=
  sim_modify (fun _ => rfl) fun _ => rfl

theorem sim_fputsUsage : Sim (OtherArgs v v') fputsUsage fputsUsage :=
  sim_modify (fun _ => rfl) fun _ => rfl

theorem sim_exitOne : Sim (OtherArgs v v') exitOne exitOne :=
  .bind (sim_modify (fun _ => rfl) fun _ => rfl) fun _ => .fail

theorem sim_reject (msg : String) : Sim (OtherArgs v v') (reject msg) (reject msg) :=
  .bind (sim_fprintf msg) fun _ => sim_exitOne

theorem sim_rejectIf (c : Bool) (msg : String) :
    Sim (OtherArgs v v') (rejectIf c msg) (rejectIf c msg) := .ite (sim_reject msg) (.pure _)

theorem sim_zoom {x y : Proc YkpState α} (hx : Sim (OtherKey v v') x y) : Sim (OtherArgs v v')
    (Proc.zoom ArgsState.ykp (fun y s => { s with ykp := y }) x)
    (Proc.zoom ArgsState.ykp (fun y s => { s with ykp := y }) y) :=
  hx.zoom (fun s t h => ⟨h.1, h.2 ▸ rfl⟩) fun s t a b h hab => ⟨hab.1, by rw [h.2, hab.2]; rfl⟩

theorem agree_zoom {x y : Proc YkpState α} (hx : Agree v v' P x y) : AgreeArgs v v' P
    (Proc.zoom ArgsState.ykp (fun y s => { s with ykp := y }) x)
    (Proc.zoom ArgsState.ykp (fun y s => { s with ykp := y }) y) :=
  hx.zoom (fun s t h => ⟨h.1, h.2 ▸ rfl⟩) (fun s t a b h hab => ⟨hab.1, by rw [h.2, hab.2]; rfl⟩)
    (fun _ _ h => h) fun _ _ h => h

theorem sim_discarding {x y : Proc YkpState Unit} (hx : Sim (OtherKey v v') x y) :
    Sim (OtherArgs v v') (discarding x) (discarding y) :=
  sim_zoom (hx.attempt.bind fun _ => .pure _)

theorem agree_onYkp {x y : Proc YkpState Unit} (hx : Agree v v' P x y) :
    AgreeArgs v v' P (onYkp x) (onYkp y) := agree_zoom hx

theorem orExitOne_run (x : Proc YkpState Unit) (s : ArgsState) :
    orExitOne x s = match x s.ykp with
      | (.ok _, y) => (.ok ⟨⟩, { s with ykp := y })
      | (.fail, y) => (.fail, { s with ykp := y, exitCode := 1 })
      | (.fault, y) => (.fault, { s with ykp := y })
      | (.diverge, y) => (.diverge, { s with ykp := y }) := by
  have hrun : ∀ r y, Proc.attempt x s.ykp = (r, y) → Proc.zoom ArgsState.ykp
      (fun y s => { s with ykp := y }) (Proc.attempt x) s = (r, { s with ykp := y }) := by
    intro r y h
    rw [Proc.zoom_run, h]
  unfold orExitOne
  rcases hx : x s.ykp with ⟨_ | _ | _ | _, y⟩
  · rw [Proc.bind_ok (hrun _ _ (Proc.attempt_ok hx))]
    rfl
  · rw [Proc.bind_ok (hrun _ _ (Proc.attempt_fail hx))]
    rfl
  · rw [Proc.bind_fault (hrun .fault y (by unfold Proc.attempt; rw [hx]))]
  · rw [Proc.bind_diverge (hrun .diverge y (by unfold Proc.attempt; rw [hx]))]

/-- Where a call is refused, so is the command line. -/
theorem agree_orExitOne {x y : Proc YkpState Unit} (hx : Agree v v' P x y) :
    AgreeArgs v v' P (orExitOne x) (orExitOne y) := by
  rintro s t ⟨hv, rfl⟩
  rw [orExitOne_run, orExitOne_run]
  have h := hx s.ykp (s.withVersion v').ykp ⟨hv, rfl⟩
  rcases hxs : x s.ykp with ⟨r, a⟩
  rcases hyt : y (s.withVersion v').ykp with ⟨q, b⟩
  rw [hxs, hyt] at h
  obtain ⟨h1, hv', h2⟩ | ⟨h1, h2⟩ | ⟨h1, h2⟩ := h
  · obtain rfl : r = q := h1
    obtain rfl : b = a.withVersion v' := h2
    cases r <;> exact .inl ⟨rfl, hv', rfl⟩
  · obtain rfl : r = .fail := h1
    exact .inr (.inl ⟨rfl, h2⟩)
  · obtain rfl : q = .fail := h1
    exact .inr (.inr ⟨rfl, h2⟩)

end Steps

/-! ## The flags that come with a slot -/

section Slot

variable {v v' : Version} {P : Prop}

/-- A key that takes slot 2 has what its defaults need. -/
theorem static_of_slot2 {c : YkpConfig} (h : commandError c slotConfig2 = none) :
    capabilityHasStatic c = true ∧ capabilityHasStaticExtras c = true := by
  have h2 : ¬ slotConfig2 = slotConfig := by decide
  rw [commandError, if_neg h2, if_pos rfl] at h
  split_ifs at h with hmajor hneo
  have hno : vcheckNeo c = false := by simpa [vcheckNeo] using hneo
  have hmajor : 2 ≤ c.ykMajorVersion := by simpa using hmajor
  have h1 : vcheckNoV1 c = true := by
    simp only [vcheckNoV1, decide_eq_true_eq, gt_iff_lt, UInt8.lt_iff_toNat_lt]
    exact UInt8.le_iff_toNat_le.1 hmajor
  simp [capabilityHasStatic, capabilityHasStaticExtras, vcheckAll, vcheckNeoBefore5, hno, h1]

theorem update_of_slot {c : YkpConfig} {second : Bool}
    (h : commandError c (if second then slotUpdate2 else slotUpdate1) = none) :
    capabilityHasUpdate c = true := by
  have hslot : (if second then slotUpdate2 else slotUpdate1) = slotUpdate1
      ∨ (if second then slotUpdate2 else slotUpdate1) = slotUpdate2 := by
    cases second <;> simp
  have h1 : ¬ (if second then slotUpdate2 else slotUpdate1) = slotConfig := by
    cases second <;> decide
  have h2 : ¬ (if second then slotUpdate2 else slotUpdate1) = slotConfig2 := by
    cases second <;> decide
  rw [commandError, if_neg h1, if_neg h2, if_pos (by tauto)] at h
  split_ifs at h with hv
  simpa [capabilityHasUpdate, vcheckV23OrGreater, vcheckV2OrGreater] using hv

theorem sim_discardFlag {capability : YkpConfig → Bool} (field : FlagField) (flag : UInt8)
    (state : Bool) (hcap : ∀ c, c.version = v ∨ c.version = v' → capability c = true) :
    Sim (OtherArgs v v') (discarding (ykpSetFlag field flag capability state))
      (discarding (ykpSetFlag field flag capability state)) := by
  refine sim_discarding ?_
  rintro s t ⟨hv, rfl⟩
  have ht : capability (s.withVersion v').cfg = true := hcap _ (.inr rfl)
  simp only [ykpSetFlag, Proc.get_bind_run, hcap _ (.inl hv), ht, if_true]
  exact sim_store _ _ _ ⟨hv, rfl⟩

theorem Sim.run_eq {α : Type} {x : Proc ArgsState α} (hx : Sim (OtherArgs v v') x x)
    {s : ArgsState} (hv : s.ykp.cfg.version = v) :
    x (s.withVersion v') = ((x s).1, (x s).2.withVersion v') :=
  Prod.ext (hx s _ ⟨hv, rfl⟩).1.symm (hx s _ ⟨hv, rfl⟩).2.2

/-- Where both keys take the command, its flags are set on both. -/
theorem sim_slotCommand (second : Bool) {s : ArgsState} (hv : s.ykp.cfg.version = v)
    (htakes : ∀ c, c.version = v ∨ c.version = v' →
      commandError c ((slotKind second).command s.updateSeen s.ykp.cfg.command) = none) :
    slotCommand second (s.withVersion v')
      = ((slotCommand second s).1, (slotCommand second s).2.withVersion v') := by
  rw [slotCommand, Proc.get_bind_run, Proc.get_bind_run]
  have hsame : (s.withVersion v').updateSeen = s.updateSeen := rfl
  rw [hsame]
  by_cases hu : s.updateSeen = true
  · have hcap : ∀ c, c.version = v ∨ c.version = v' → capabilityHasUpdate c = true := by
      intro c hc
      have h := htakes c hc
      have hupdate : commandError c (if second then slotUpdate2 else slotUpdate1) = none := by
        cases second <;> simpa [slotKind, Kind.command, hu] using h
      exact update_of_slot hupdate
    rw [if_pos hu]
    exact Sim.run_eq (.bind (sim_discardFlag _ _ _ hcap) fun _ => .pure _) hv
  · rw [if_neg hu]
    cases second with
    | false => rfl
    | true =>
      have hcap : ∀ c, c.version = v ∨ c.version = v' →
          capabilityHasStatic c = true ∧ capabilityHasStaticExtras c = true := by
        intro c hc
        refine static_of_slot2 ?_
        have h := htakes c hc
        simpa [slotKind, Kind.command, hu] using h
      have hextras : ∀ c, c.version = v ∨ c.version = v' → capabilityHasStaticExtras c = true :=
        fun c hc => (hcap c hc).2
      rw [if_pos rfl]
      refine Sim.run_eq ?_ hv
      exact .bind (sim_discardFlag _ _ _ fun c hc => (hcap c hc).1) fun _ =>
        .bind (sim_discardFlag _ _ _ hextras) fun _ =>
          .bind (sim_discardFlag _ _ _ hextras) fun _ =>
            .bind (sim_discardFlag _ _ _ hextras) fun _ => .pure _

/-- A slot is refused for the version only. -/
theorem slot_refused {second u : Bool} {command : UInt8} {c : YkpConfig} {e : YkpErr}
    (h : commandError c ((slotKind second).command u command) = some e) :
    e = .EYUBIKEYVER ∨ e = .EOLDYUBIKEY := by
  refine (commandError_some h).resolve_right fun hall => ?_
  have h3 : commandError (ykpAlloc.withVersion (3, 0, 0)) ((slotKind second).command u command)
      = none := by
    cases second <;> cases u <;> rfl
  rw [hall] at h3
  cases h3

/-- The command of a slot and what goes with it, and the question whether the key takes it. -/
theorem agree_slot (hP : P ∨ Covers v v') (second : Bool) : AgreeArgs v v' P
    (slotCommand second >>= fun command => onYkp (ykpConfigureCommand command))
    (slotCommand second >>= fun command => onYkp (ykpConfigureCommand command)) := by
  rintro s t ⟨hv, rfl⟩
  obtain ⟨command, y, hrun, hcommand, hy⟩ := slotCommand_run second s
  obtain ⟨command', y', hrun', hcommand', hy'⟩ := slotCommand_run second (s.withVersion v')
  obtain rfl : command' = command := hcommand'.trans hcommand.symm
  rw [Proc.bind_ok hrun, Proc.bind_ok hrun', configureCommand_run, configureCommand_run,
    commandError_congr hy, commandError_congr hy']
  rcases hs : commandError s.ykp.cfg command' with _ | e
  · rcases ht : commandError (s.withVersion v').ykp.cfg command' with _ | e
    · have htakes : ∀ c, c.version = v ∨ c.version = v' → commandError c command' = none := by
        rintro c (hc | hc)
        · rw [commandError_congr (hc.trans hv.symm), hs]
        · rw [commandError_congr (c := (s.withVersion v').ykp.cfg) hc, ht]
      have hsim := sim_slotCommand second hv (hcommand ▸ htakes)
      rw [hrun, hrun'] at hsim
      obtain rfl : y' = y.withVersion v' := congrArg (fun p => p.2.ykp) hsim
      exact .inl ⟨rfl, hy.trans hv, rfl⟩
    · refine .inr (.inr ⟨rfl, hP.resolve_right fun h => ?_, ?_⟩)
      · have hnone := h.command _ hv _ hs
        rw [show s.ykp.cfg.withVersion v' = (s.withVersion v').ykp.cfg from rfl, ht] at hnone
        cases hnone
      · exact (slot_refused (hcommand ▸ ht)).imp (congrArg some) (congrArg some)
  · exact .inr (.inl ⟨rfl, (slot_refused (hcommand ▸ hs)).imp (congrArg some) (congrArg some)⟩)

end Slot

/-! ## The cases of the option loop -/

section Cases

variable {v v' : Version} {P : Prop} (E : ArgsEnv) (optarg : List Char)

theorem sim_promptForData (question : String) :
    Sim (OtherArgs v v') (promptForData question) (promptForData question) := by
  refine .bind (sim_fprintf question) fun _ => sim_get fun s hs => ?_
  rcases hgets : fgets 256 s.stdin with _ | ⟨line, rest⟩
  · simp only [show (s.withVersion v').stdin = s.stdin from rfl, hgets]
    exact .bind (sim_fprintf _) fun _ => .bind (sim_modify (fun _ => rfl) fun _ => rfl) fun _ =>
      .pure _
  · simp only [show (s.withVersion v').stdin = s.stdin from rfl, hgets]
    exact .bind (sim_modify (fun _ => rfl) fun _ => rfl) fun _ => .pure _

theorem sim_noteDecode (capacity : ℕ) (d : Decoded) :
    Sim (OtherArgs v v') (noteDecode capacity d) (noteDecode capacity d) :=
  .ite (sim_modify (fun _ => rfl) fun _ => rfl) (.pure _)

theorem sim_caseU : Sim (OtherArgs v v') caseU caseU :=
  sim_get fun s _ => .bind (sim_rejectIf s.slotChosen _) fun _ =>
    .bind (sim_rejectIf s.swapSeen _) fun _ => .bind (sim_rejectIf s.ndefSeen _) fun _ =>
      sim_modify (fun _ => rfl) fun _ => rfl

theorem agree_caseX (hP : P ∨ Covers v v') : AgreeArgs v v' P caseX caseX :=
  agree_get fun _ _ => .bind (.of_sim (sim_rejectIf _ _)) fun _ =>
    .bind (agree_onYkp (agree_configureCommand hP _)) fun _ =>
      .of_sim (sim_modify (fun _ => rfl) fun _ => rfl)

theorem sim_caseZ : Sim (OtherArgs v v') caseZ caseZ :=
  sim_get fun _ _ => .bind (sim_rejectIf _ _) fun _ => sim_modify (fun _ => rfl) fun _ => rfl

theorem sim_caseF : Sim (OtherArgs v v') (caseF optarg) (caseF optarg) :=
  .ite (sim_modify (fun _ => rfl) fun _ => rfl) <|
    .ite (sim_modify (fun _ => rfl) fun _ => rfl) (sim_reject _)

theorem sim_caseA : Sim (OtherArgs v v') (caseA optarg) (caseA optarg) :=
  .ite (.bind (sim_modify (fun _ => rfl) fun _ => rfl) fun _ =>
      sim_modify (fun _ => rfl) fun _ => rfl)
    (sim_modify (fun _ => rfl) fun _ => rfl)

theorem sim_promptAccessCode : Sim (OtherArgs v v') promptAccessCode promptAccessCode :=
  .bind (sim_promptForData _) fun _ => .bind (sim_modify (fun _ => rfl) fun _ => rfl) fun _ =>
    .ite sim_exitOne (.pure _)

theorem sim_caseC : Sim (OtherArgs v v') (caseC optarg) (caseC optarg) :=
  .ite (.bind (sim_modify (fun _ => rfl) fun _ => rfl) fun _ => sim_promptAccessCode)
    (sim_modify (fun _ => rfl) fun _ => rfl)

theorem agree_caseN (hP : P ∨ Covers v v') :
    AgreeArgs v v' P (caseN E optarg) (caseN E optarg) :=
  .bind (.of_sim (sim_modify (fun _ => rfl) fun _ => rfl)) fun _ => agree_get fun _ _ =>
    .bind (.of_sim (sim_rejectIf _ _)) fun _ =>
      .bind (agree_onYkp (agree_configureCommand hP _)) fun _ =>
        .of_sim (.bind (sim_modify (fun _ => rfl) fun _ => rfl) fun _ =>
          sim_modify (fun _ => rfl) fun _ => rfl)

theorem agree_caseT (hP : P ∨ Covers v v') :
    AgreeArgs v v' P (caseT E optarg) (caseT E optarg) :=
  .bind (.of_sim (sim_modify (fun _ => rfl) fun _ => rfl)) fun _ => agree_caseN E optarg hP

theorem agree_caseM (hP : P ∨ Covers v v') : AgreeArgs v v' P (caseM optarg) (caseM optarg) := by
  refine agree_get fun _ _ => .bind (.of_sim (sim_rejectIf _ _)) fun _ => ?_
  rcases scanUsbMode optarg with _ | mode
  · exact .of_sim (sim_reject _)
  · refine .bind (.of_sim (sim_modify (fun s => ?_) fun s => ?_)) fun _ =>
      agree_onYkp (agree_configureCommand hP _)
    · rcases mode with ⟨_, _ | ⟨_, _ | _⟩⟩ <;> rfl
    · rcases mode with ⟨_, _ | ⟨_, _ | _⟩⟩ <;> rfl

theorem agree_caseS (hP : P ∨ Covers v v') :
    AgreeArgs v v' P (caseS E optarg) (caseS E optarg) :=
  agree_get fun _ _ => .bind (.of_sim (sim_rejectIf _ _)) fun _ =>
    .bind (.of_sim (sim_noteDecode _ _)) fun _ =>
      .bind (.of_sim (sim_modify (fun _ => rfl) fun _ => rfl)) fun _ =>
        .bind (.of_sim (sim_rejectIf _ _)) fun _ =>
          .bind (.of_sim (sim_modify (fun _ => rfl) fun _ => rfl)) fun _ =>
            agree_onYkp (agree_configureCommand hP _)

theorem agree_caseMissingS (hP : P ∨ Covers v v') :
    AgreeArgs v v' P caseMissingS caseMissingS :=
  agree_get fun _ _ => .bind (.of_sim (sim_rejectIf _ _)) fun _ =>
    .bind (.of_sim (sim_modify (fun _ => rfl) fun _ => rfl)) fun _ =>
      .bind (.of_sim (sim_modify (fun _ => rfl) fun _ => rfl)) fun _ =>
        agree_onYkp (agree_configureCommand hP _)

theorem agree_caseD (hP : P ∨ Covers v v') :
    AgreeArgs v v' P (caseD E optarg) (caseD E optarg) :=
  agree_get fun _ _ => .bind (.of_sim (sim_rejectIf _ _)) fun _ =>
    .bind (.of_sim (sim_noteDecode _ _)) fun _ =>
      .bind (.of_sim (sim_modify (fun _ => rfl) fun _ => rfl)) fun _ =>
        .bind (.of_sim (sim_rejectIf _ _)) fun _ =>
          .bind (agree_onYkp (agree_configureCommand hP _)) fun _ =>
            .of_sim (sim_modify (fun _ => rfl) fun _ => rfl)

/-- A slot's own check comes behind the flags that go with it. -/
theorem agree_caseSlot (hP : P ∨ Covers v v') (second : Bool) :
    AgreeArgs v v' P (caseSlot second) (caseSlot second) := by
  refine agree_get fun _ _ => .bind (.of_sim (sim_rejectIf _ _)) fun _ =>
    .bind (.of_sim (sim_rejectIf _ _)) fun _ => .bind (.of_sim (sim_rejectIf _ _)) fun _ =>
      .bind (.of_sim (sim_discardFlag _ _ _ fun _ _ => rfl)) fun _ => ?_
  rw [← Proc.bind_assoc]
  exact .bind (agree_slot hP second) fun _ => .of_sim (sim_modify (fun _ => rfl) fun _ => rfl)

theorem sim_modeOption : Sim (OtherArgs v v') (modeOption optarg) (modeOption optarg) := by
  refine .ite (sim_get fun s _ => ?_) (sim_modify (fun _ => rfl) fun _ => rfl)
  exact .bind (sim_rejectIf s.modeChosen _) fun _ => .bind (sim_rejectIf s.optionSeen _) fun _ =>
    .bind (sim_zoom (sim_store _)) fun _ => .bind (sim_modify (fun _ => rfl) fun _ => rfl) fun _ =>
      sim_modify (fun _ => rfl) fun _ => rfl

theorem sim_optionFixed :
    Sim (OtherArgs v v') (optionFixed E optarg) (optionFixed E optarg) := by
  have hset : Sim (OtherArgs v v') (setFixed E optarg) (setFixed E optarg) :=
    .bind (sim_noteDecode _ _) fun _ => .ite .fail (sim_discarding (sim_setCharfield _ _))
  exact .bind_option hset.attempt (fun _ => .pure _) (sim_reject _)

theorem sim_uidValue : Sim (OtherArgs v v') (uidValue optarg) (uidValue optarg) :=
  .ite (.pure _) <| .bind (sim_promptForData _) fun _ =>
    .ite (.bind sim_exitOne fun _ => .pure _) (.pure _)

theorem sim_optionUid : Sim (OtherArgs v v') (optionUid E optarg) (optionUid E optarg) :=
  .bind (sim_uidValue optarg) fun _ => .bind (sim_noteDecode _ _) fun _ =>
    .bind (sim_rejectIf _ _) fun _ => sim_get fun _ _ => .bind (sim_rejectIf _ _) fun _ =>
      sim_discarding (sim_setCharfield _ _)

theorem sim_promptNewAccessCode :
    Sim (OtherArgs v v') promptNewAccessCode promptNewAccessCode :=
  .bind (sim_promptForData _) fun _ => .bind (sim_modify (fun _ => rfl) fun _ => rfl) fun _ =>
    .ite sim_exitOne (.pure _)

theorem agree_optionOathImf (hP : P ∨ Covers v v') :
    AgreeArgs v v' P (optionOathImf optarg) (optionOathImf optarg) := by
  refine agree_get fun _ _ => .bind (.of_sim (sim_rejectIf _ _)) fun _ => ?_
  rcases scanUnsignedLong optarg with _ | imf
  · exact .of_sim (sim_reject _)
  · exact .bind (.of_sim (sim_rejectIf _ _)) fun _ => agree_orExitOne (agree_setOathImf hP imf)

theorem sim_rejectUnknown :
    Sim (OtherArgs v v') (rejectUnknown optarg) (rejectUnknown optarg) :=
  .bind (sim_fprintf _) fun _ => .bind sim_fputsUsage fun _ => sim_exitOne

theorem agree_findFlag (hP : P ∨ Covers v v')
    {table : List (String × (Bool → Proc YkpState Unit))}
    (ht : table ⊆ tktflagOptions ++ cfgflagOptions ++ extflagOptions) {x : Proc YkpState Unit}
    (hx : findFlag table optarg = some x) : AgreeArgs v v' P (orExitOne x) (orExitOne x) := by
  refine agree_orExitOne ?_
  obtain ⟨q, hq, ⟨-, rfl⟩ | ⟨-, rfl⟩⟩ := findFlag_some hx <;>
    obtain ⟨field, p, hp, he⟩ := flagOptions_isSetter q (ht hq) <;> rw [he] <;>
    exact agree_setter hP hp _

theorem agree_caseO (hP : P ∨ Covers v v') :
    AgreeArgs v v' P (caseO E optarg) (caseO E optarg) := by
  refine agree_get fun _ _ => .bind (.of_sim (sim_rejectIf _ _)) fun _ => ?_
  refine .ite (.of_sim (sim_optionFixed E _)) <| .ite (.of_sim (sim_optionUid E _)) <|
    .ite (.of_sim (sim_modify (fun _ => rfl) fun _ => rfl)) <|
      .ite (.of_sim sim_promptNewAccessCode) ?_
  rcases hf : findFlag (tktflagOptions ++ cfgflagOptions) optarg with _ | x
  · refine .ite (agree_optionOathImf _ hP) <|
      .ite (.of_sim (sim_modify (fun _ => rfl) fun _ => rfl)) ?_
    rcases hg : findFlag extflagOptions optarg with _ | x
    · exact .of_sim (sim_rejectUnknown _)
    · exact agree_findFlag _ hP (List.subset_append_right _ _) hg
  · exact agree_findFlag _ hP (List.subset_append_left _ _) hf

theorem sim_caseHelp : Sim (OtherArgs v v') caseHelp caseHelp :=
  .bind sim_fputsUsage fun _ => .bind (sim_modify (fun _ => rfl) fun _ => rfl) fun _ => .fail

end Cases

/-! ## The whole command line -/

section Whole

variable {v v' : Version} {P : Prop} (E : ArgsEnv)

theorem agree_handle (hP : P ∨ Covers v v') (o : Getopt.Scanned) :
    AgreeArgs v v' P (handle E o) (handle E o) := by
  unfold handle
  split
  · exact .of_sim sim_caseU
  · exact agree_caseSlot hP false
  · exact agree_caseSlot hP true
  · exact agree_caseX hP
  · exact .of_sim sim_caseZ
  · exact .of_sim (sim_modify (fun _ => rfl) fun _ => rfl)
  · exact .of_sim (sim_modify (fun _ => rfl) fun _ => rfl)
  · exact .of_sim (sim_caseF _)
  · exact .of_sim (sim_caseA _)
  · exact .of_sim (sim_caseC _)
  · exact agree_caseT E _ hP
  · exact agree_caseN E _ hP
  · exact agree_caseM _ hP
  · exact agree_caseS E _ hP
  · exact agree_caseD E _ hP
  · exact .bind (.of_sim (sim_modeOption _)) fun _ => agree_caseO E _ hP
  · exact .of_sim (sim_modify (fun _ => rfl) fun _ => rfl)
  · exact .of_sim (sim_modify (fun _ => rfl) fun _ => rfl)
  · exact .of_sim (sim_modify (fun _ => rfl) fun _ => rfl)
  · exact .of_sim (.pure _)
  · exact .of_sim (.pure _)
  · exact agree_caseMissingS hP
  · exact .of_sim (sim_modify (fun _ => rfl) fun _ => rfl)
  · exact .of_sim sim_promptAccessCode
  · exact .of_sim sim_caseHelp

theorem sim_nextOption : Sim (OtherArgs v v') nextOption nextOption := by
  rintro s t ⟨hv, rfl⟩
  exact ⟨rfl, hv, rfl⟩

/-- By induction on the fuel, one option after the other. -/
theorem agree_optionLoop (hP : P ∨ Covers v v') :
    ∀ fuel, AgreeArgs v v' P (optionLoop E fuel) (optionLoop E fuel)
  | 0 => .of_sim .diverge
  | fuel + 1 => by
    refine .bind (.of_sim sim_nextOption) ?_
    rintro (_ | o)
    · exact .of_sim (.pure _)
    · exact .bind (agree_handle E hP o) fun _ => agree_optionLoop hP fuel

theorem sim_checkAction : Sim (OtherArgs v v') checkAction checkAction :=
  sim_get fun _ _ => .ite
    (.ite (.bind sim_fputsUsage fun _ => sim_exitOne) (.bind (sim_fprintf _) fun _ => sim_exitOne))
    (.pure _)

theorem sim_checkUpdate : Sim (OtherArgs v v') checkUpdate checkUpdate :=
  sim_get fun _ _ => .ite
    (.bind (sim_rejectIf _ _) fun _ => .bind (sim_rejectIf _ _) fun _ => sim_rejectIf _ _)
    (.pure _)

theorem sim_readRandom (source : ℕ → List UInt8) (keyBytes : ℕ) :
    ∀ (fuel i : ℕ) (keybuf : List UInt8), Sim (OtherArgs v v')
      (readRandom source keyBytes fuel i keybuf) (readRandom source keyBytes fuel i keybuf)
  | 0, _, _ => .diverge
  | fuel + 1, i, _ => .ite (sim_readRandom source keyBytes fuel (i + 1) _) (.pure _)

theorem sim_randomKey (fuel keyBytes : ℕ) :
    Sim (OtherArgs v v') (randomKey E fuel keyBytes) (randomKey E fuel keyBytes) := by
  unfold randomKey
  split
  · exact sim_readRandom _ _ _ _ _
  · exact .bind (sim_modify (fun _ => rfl) fun _ => rfl) fun _ => .bind sim_exitOne fun _ => .pure _

theorem sim_promptKey (keyBytes : ℕ) :
    Sim (OtherArgs v v') (promptKey keyBytes) (promptKey keyBytes) :=
  sim_get fun _ _ => .ite (.bind (sim_promptForData _) fun _ =>
    .ite sim_exitOne (sim_modify (fun _ => rfl) fun _ => rfl)) (.pure _)

theorem sim_decodeKey (keyBytes : ℕ) :
    Sim (OtherArgs v v') (decodeKey E keyBytes) (decodeKey E keyBytes) :=
  sim_get fun _ _ => .bind (sim_noteDecode _ _) fun _ => .bind (sim_rejectIf _ _) fun _ => .pure _

/-- How long a key is depends on the flags, not on the version. -/
theorem sim_keySection (fuel : ℕ) :
    Sim (OtherArgs v v') (keySection E fuel) (keySection E fuel) := by
  have hstore : ∀ (keyBytes : ℕ) keybuf, Sim (OtherArgs v v')
      (onYkp (if keyBytes = 20 then ykpHmacKeyFromRaw keybuf else ykpAesKeyFromRaw keybuf))
      (onYkp (if keyBytes = 20 then ykpHmacKeyFromRaw keybuf else ykpAesKeyFromRaw keybuf)) :=
    fun keyBytes keybuf => sim_zoom (.ite (sim_store _) (sim_store _))
  refine sim_get fun s _ => .ite ?_ (.pure _)
  refine .bind (sim_promptKey (ykpGetSupportedKeyLength s.ykp.cfg)) fun _ => sim_get fun t _ =>
    .ite ?_ ?_
  · exact .bind (sim_randomKey E _ _) fun _ => hstore _ _
  · exact .bind (sim_decodeKey E _) fun _ => hstore _ _

/-- Everything behind the version. -/
def argsBehindVersion (fuel : ℕ) : Proc ArgsState Unit := do
  optionLoop E fuel
  checkAction
  checkUpdate
  keySection E fuel

theorem agree_behindVersion (hP : P ∨ Covers v v') (fuel : ℕ) :
    AgreeArgs v v' P (argsBehindVersion E fuel) (argsBehindVersion E fuel) :=
  .bind (agree_optionLoop E hP fuel) fun _ => .bind (.of_sim sim_checkAction) fun _ =>
    .bind (.of_sim sim_checkUpdate) fun _ => .of_sim (sim_keySection E fuel)

theorem optionLoop_status (st : YkStatus) :
    ∀ fuel, optionLoop { E with st := st } fuel = optionLoop E fuel
  | 0 => rfl
  | fuel + 1 => by
    unfold optionLoop
    rw [optionLoop_status st fuel]
    rfl

/-- The status is asked for the version, and for nothing else. -/
theorem argsToConfig_run (st : YkStatus) (fuel : ℕ) (s : ArgsState) :
    argsToConfig { E with st := st } fuel s
      = argsBehindVersion E fuel ((declareLocals s).2.withVersion st.version) := by
  unfold argsToConfig argsBehindVersion
  rw [optionLoop_status]
  rfl

end Whole

/-- The configuration that a command line asks for is the same for every key, and so are its
questions, its messages and what else it leaves, unless one of the two keys is refused for its
version. -/
theorem argsToConfig_anyKey (E : ArgsEnv) (st : YkStatus) (fuel : ℕ) (s : ArgsState) :
    let r := argsToConfig E fuel s
    let r' := argsToConfig { E with st := st } fuel s
    r' = (r.1, r.2.withVersion st.version) ∨ (r.1 = .fail ∧ r.2.ykp.Refused)
      ∨ (r'.1 = .fail ∧ r'.2.ykp.Refused) := by
  intro r r'
  have hr : r = argsBehindVersion E fuel ((declareLocals s).2.withVersion E.st.version) :=
    argsToConfig_run E E.st fuel s
  have hr' : r' = argsBehindVersion E fuel ((declareLocals s).2.withVersion st.version) :=
    argsToConfig_run E st fuel s
  rw [hr, hr']
  obtain ⟨h1, -, h2⟩ | h | ⟨h1, -, h2⟩ := agree_behindVersion (P := True) E
    (show True ∨ Covers E.st.version st.version from .inl trivial) fuel
      ((declareLocals s).2.withVersion E.st.version) _ ⟨rfl, rfl⟩
  · exact .inl (Prod.ext h1.symm h2)
  · exact .inr (.inl h)
  · exact .inr (.inr ⟨h1, h2⟩)

end YkPers
