import YkPers.Proofs.Turns

/-!
# Commands that the firmware refuses

An option that chooses a command fails loudly where it is guarded or where its argument cannot be
read. Past that it fails where the firmware of the key refuses its command, and leaves the exit code
as it is (`handle_end`).
-/

namespace YkPers

open Proc (Moves)

/-- The options of a kind choose a command. -/
def Kind.configures (k : Kind) : Bool := k.isSlot || k = swap || k = ndefRequest || k = usbMode ||
  k = scanMap || k = scanReset || k = deviceInfo

/-- The argument of an option that chooses a command can be read. -/
def readable (E : ArgsEnv) : Getopt.Scanned → Bool
  | .arg 'm' optarg => (scanUsbMode optarg).isSome
  | .arg 'S' optarg =>
    0 < (hexModhexDecode E optarg (scanMap.length * 2) (scanMap.length * 2) false).rc
  | .arg 'D' optarg => 0 < (hexModhexDecode E optarg 2 128 false).rc
  | _ => true

/-- `-h` and what `getopt` finds fault with, but for the three options that may come without their
argument. -/
def helps : Getopt.Scanned → Bool
  | .flag c => c ∉ ['u', '1', '2', 'x', 'z', 'd', 'v', 'y', 'V']
  | .arg c _ => c ∉ ['i', 's', 'f', 'a', 'c', 't', 'n', 'm', 'S', 'D', 'o', 'N']
  | .missing c => c ∉ ['S', 'a', 'c']
  | .unknown _ => true

/-- An option is let through, and its command refused. -/
structure Refused (E : ArgsEnv) (o : Getopt.Scanned) (s : ArgsState) : Prop where
  configures : (optionKind o).configures = true
  readable : readable E o = true
  clear : ∀ m ∈ (optionKind o).guards, s.seen m = false
  refused : commandError s.ykp.cfg
    ((optionKind o).command (s.seen .update) s.ykp.cfg.command) ≠ none

/-- A step fails with the exit code 1, or it fails silently, which it does just where `P` holds, or
it returns. -/
inductive CaseEnd (P : Prop) (s : ArgsState) : Ret Unit × ArgsState → Prop
  | loud {s'} : ¬ P → s'.exitCode = 1 → CaseEnd P s (.fail, s')
  | silent {s'} : P → s'.exitCode = s.exitCode → CaseEnd P s (.fail, s')
  | ok {s'} : ¬ P → s'.exitCode = s.exitCode → CaseEnd P s (.ok ⟨⟩, s')

/-- A guard: where it is set, the option is not one that is refused by the firmware. -/
theorem CaseEnd.guard {P : Prop} {s t : ArgsState} {c : Bool} {msg : String}
    {f : Unit → Proc ArgsState Unit} (hP : P → c = false)
    (h : c = false → CaseEnd P s (f ⟨⟩ t)) : CaseEnd P s ((rejectIf c msg >>= f) t) := by
  cases c with
  | false => exact h rfl
  | true => exact .loud (fun hp => by cases hP hp) rfl

section Configure

variable {P : Prop} {s t : ArgsState} {command : UInt8}

theorem configureCommand_run (command : UInt8) (s : ArgsState) :
    onYkp (ykpConfigureCommand command) s
      = match commandError s.ykp.cfg command with
        | some e => (.fail, { s with ykp.ykpErrno := some e })
        | none => (.ok ⟨⟩, { s with ykp.cfg.command := command }) := by
  rw [onYkp, Proc.zoom_run, ykpConfigureCommand, Proc.get_bind_run]
  rcases commandError s.ykp.cfg command with _ | e <;> rfl

theorem CaseEnd.configure (hP : P ↔ commandError t.ykp.cfg command ≠ none)
    (ht : t.exitCode = s.exitCode) : CaseEnd P s (onYkp (ykpConfigureCommand command) t) := by
  rw [configureCommand_run]
  rcases he : commandError t.ykp.cfg command with _ | e <;> rw [he] at hP
  · exact .ok (by simp [hP]) ht
  · exact .silent (by simp [hP]) ht

theorem CaseEnd.configure_modify (hP : P ↔ commandError t.ykp.cfg command ≠ none)
    (ht : t.exitCode = s.exitCode) {f : ArgsState → ArgsState}
    (hf : ∀ u, (f u).exitCode = u.exitCode) :
    CaseEnd P s ((onYkp (ykpConfigureCommand command) >>= fun _ => Proc.modify f) t) := by
  have hc := configureCommand_run command t
  rcases he : commandError t.ykp.cfg command with _ | e <;> rw [he] at hP hc
  · rw [Proc.bind_ok hc]
    exact .ok (by simp [hP]) ((hf _).trans ht)
  · rw [Proc.bind_fail hc]
    exact .silent (by simp [hP]) ht

end Configure

/-- A flag that is set without a look at the result. -/
theorem discardSetter_run {f : Bool → Proc YkpState Unit} (hf : IsSetter f) (s : ArgsState) :
    ∃ y, discarding (f true) s = (.ok ⟨⟩, { s with ykp := y })
      ∧ y.cfg.version = s.ykp.cfg.version := by
  obtain ⟨field, p, hp, rfl⟩ := hf
  rw [setter_eq field p hp, discarding, Proc.zoom_run]
  rcases hc : p.capability s.ykp.cfg with _ | _
  · have hrun : ykpSetFlag field p.flag p.capability true s.ykp
        = (.fail, { s.ykp with ykpErrno := some .EYUBIKEYVER }) := by
      simp [ykpSetFlag, hc, ykpError]
    rw [Proc.bind_ok (Proc.attempt_fail hrun)]
    exact ⟨_, rfl, rfl⟩
  · have hrun : ykpSetFlag field p.flag p.capability true s.ykp
        = (.ok ⟨⟩, { s.ykp with
            cfg.ykcoreConfig := p.stored field true s.ykp.cfg.ykcoreConfig }) := by
      simp [ykpSetFlag, hc, ykpStore, MapSt.stored]
    rw [Proc.bind_ok (Proc.attempt_ok hrun)]
    exact ⟨_, rfl, rfl⟩

/-- What is refused depends on the version of the key. -/
theorem commandError_congr {c d : YkpConfig} (h : d.version = c.version) (command : UInt8) :
    commandError d command = commandError c command := by
  simp only [YkpConfig.version, Prod.mk.injEq] at h
  simp only [commandError, h]

theorem slotCommand_run (second : Bool) (s : ArgsState) :
    ∃ c y, slotCommand second s = (.ok c, { s with ykp := y })
      ∧ c = (slotKind second).command s.updateSeen s.ykp.cfg.command
      ∧ y.cfg.version = s.ykp.cfg.version := by
  rw [slotCommand, Proc.get_bind_run]
  by_cases hu : s.updateSeen = true
  · obtain ⟨y, hy, hv⟩ := discardSetter_run (isSetter_get .ext 5 rfl) s
    rw [if_pos hu, Proc.bind_ok hy]
    exact ⟨_, y, rfl, by cases second <;> simp [slotKind, Kind.command, hu], hv⟩
  rw [if_neg hu]
  cases second with
  | false => exact ⟨_, s.ykp, rfl, by simp [slotKind, Kind.command, hu], rfl⟩
  | true =>
    obtain ⟨y₁, h₁, v₁⟩ := discardSetter_run (isSetter_get .cfg 13 rfl) s
    obtain ⟨y₂, h₂, v₂⟩ := discardSetter_run (isSetter_get .cfg 15 rfl) { s with ykp := y₁ }
    obtain ⟨y₃, h₃, v₃⟩ := discardSetter_run (isSetter_get .cfg 16 rfl) { s with ykp := y₂ }
    obtain ⟨y₄, h₄, v₄⟩ := discardSetter_run (isSetter_get .cfg 17 rfl) { s with ykp := y₃ }
    rw [if_pos rfl, Proc.bind_ok h₁, Proc.bind_ok h₂, Proc.bind_ok h₃, Proc.bind_ok h₄]
    exact ⟨_, y₄, rfl, by simp [slotKind, Kind.command, hu], v₄.trans (v₃.trans (v₂.trans v₁))⟩

theorem noteDecode_run (capacity : ℕ) (d : Decoded) (s : ArgsState) :
    ∃ l, noteDecode capacity d s = (.ok ⟨⟩, { s with decodes := l }) := by
  unfold noteDecode
  split_ifs
  · exact ⟨_, rfl⟩
  · exact ⟨s.decodes, rfl⟩

section Cases

variable {E : ArgsEnv} {optarg : List Char} (s : ArgsState)

theorem caseSlot_end (second : Bool) :
    CaseEnd (Refused E (.flag (if second then '2' else '1')) s) s (caseSlot second s) := by
  have hk : optionKind (.flag (if second then '2' else '1')) = slotKind second := by
    cases second <;> rfl
  have hclear : (∀ m ∈ (slotKind second).guards, s.seen m = false)
      ↔ s.slotChosen = false ∧ s.optionSeen = false ∧ s.swapSeen = false := by
    cases second <;> simp [slotKind, Kind.guards, ArgsState.seen]
  have hguard : Refused E (.flag (if second then '2' else '1')) s
      → s.slotChosen = false ∧ s.optionSeen = false ∧ s.swapSeen = false := fun h =>
    hclear.1 (hk ▸ h.clear)
  refine .guard (fun h => (hguard h).1) fun h₁ => .guard (fun h => (hguard h).2.1) fun h₂ =>
    .guard (fun h => (hguard h).2.2) fun h₃ => ?_
  obtain ⟨y, hy, hv⟩ := discardSetter_run (isSetter_get .tkt 5 rfl) s
  obtain ⟨c, y', hrun, hc, hv'⟩ := slotCommand_run second { s with ykp := y }
  rw [Proc.bind_ok hy, Proc.bind_ok hrun]
  have hcommand : c = (slotKind second).command (s.seen .update) s.ykp.cfg.command := by
    rw [hc]
    cases second <;> rfl
  refine .configure_modify ?iff ?exit fun _ => ?modify
  case exit => rfl
  case modify => rfl
  rw [hcommand, commandError_congr (hv'.trans hv)]
  refine ⟨fun h => hk ▸ h.refused, fun h => ⟨?_, ?_, ?_, ?_⟩⟩
  · rw [hk]
    cases second <;> rfl
  · cases second <;> rfl
  · rw [hk]
    exact hclear.2 ⟨h₁, h₂, h₃⟩
  · rwa [hk]

theorem caseX_end : CaseEnd (Refused E (.flag 'x') s) s (caseX s) := by
  refine .guard (fun h => ?_) fun hc => .configure_modify
    ⟨fun h => h.refused, fun h => ⟨rfl, rfl, ?_, h⟩⟩ rfl fun _ => rfl
  · simpa [optionKind, Kind.guards, ArgsState.seen, and_assoc] using h.clear
  · simpa [optionKind, Kind.guards, ArgsState.seen, and_assoc] using hc

theorem caseN_end {o : Getopt.Scanned} (hk : optionKind o = .ndefRequest)
    (hr : readable E o = true) (ndefType : Option Char) :
    CaseEnd (Refused E o s) s (caseN E optarg { s with ndefType := ndefType }) := by
  have hclear : (∀ m ∈ (optionKind o).guards, s.seen m = false) ↔ (s.swapSeen || s.updateSeen ||
      s.optionSeen || s.zap || s.usbModeSeen || s.scanMapSeen || s.deviceInfoSeen) = false := by
    rw [hk]
    simp [Kind.guards, ArgsState.seen, and_assoc]
  refine .guard (fun h => hclear.1 h.clear) fun hc => ?_
  have hP : Refused E o s ↔ commandError s.ykp.cfg (ndefCommand s.ykp.cfg.command) ≠ none := by
    refine ⟨fun h => ?_, fun h => ⟨by rw [hk]; rfl, hr, hclear.2 hc, by rwa [hk]⟩⟩
    have hrefused := h.refused
    rwa [hk] at hrefused
  have hrun := configureCommand_run (ndefCommand s.ykp.cfg.command)
    { s with ndefType := some (ndefType.getD 'U') }
  rcases he : commandError s.ykp.cfg (ndefCommand s.ykp.cfg.command) with _ | e <;>
    rw [he] at hP <;> simp only [he] at hrun
  · rw [Proc.bind_ok hrun]
    exact .ok (by simp [hP]) rfl
  · rw [Proc.bind_fail hrun]
    exact .silent (by simp [hP]) rfl

theorem caseM_end : CaseEnd (Refused E (.arg 'm' optarg) s) s (caseM optarg s) := by
  refine .guard (fun h => ?_) fun hc => ?_
  · simpa [optionKind, Kind.guards, ArgsState.seen, and_assoc] using h.clear
  rcases hv : scanUsbMode optarg with _ | v
  · refine .loud (fun h => ?_) rfl
    simpa [readable, hv] using h.readable
  have hstore : ∀ t, (storeUsbMode v t).exitCode = t.exitCode ∧ (storeUsbMode v t).ykp = t.ykp := by
    rcases v with ⟨m, _ | ⟨c, _ | a⟩⟩ <;> exact fun t => ⟨rfl, rfl⟩
  refine .configure ?_ (hstore s).1
  rw [(hstore s).2]
  refine ⟨fun h => h.refused, fun h => ⟨rfl, by simp [readable, hv], ?_, h⟩⟩
  simpa [optionKind, Kind.guards, ArgsState.seen, and_assoc] using hc

theorem caseS_end : CaseEnd (Refused E (.arg 'S' optarg) s) s (caseS E optarg s) := by
  refine .guard (fun h => ?_) fun hc => ?_
  · simpa [optionKind, Kind.guards, ArgsState.seen, and_assoc] using h.clear
  obtain ⟨l, hl⟩ := noteDecode_run s.scanBin.length
    (hexModhexDecode E optarg (scanMap.length * 2) (scanMap.length * 2) false) s
  rw [Proc.bind_ok hl, Proc.modify_bind_run]
  refine .guard (fun h => ?_) fun hd =>
    .configure ⟨fun h => h.refused, fun h => ⟨rfl, ?_, ?_, h⟩⟩ ?_
  · have := h.readable
    simpa [readable] using this
  · simpa [readable] using hd
  · simpa [optionKind, Kind.guards, ArgsState.seen, and_assoc] using hc
  · rfl

theorem caseD_end : CaseEnd (Refused E (.arg 'D' optarg) s) s (caseD E optarg s) := by
  refine .guard (fun h => ?_) fun hc => ?_
  · simpa [optionKind, Kind.guards, ArgsState.seen, and_assoc] using h.clear
  obtain ⟨l, hl⟩ := noteDecode_run s.deviceInfo.length (hexModhexDecode E optarg 2 128 false) s
  rw [Proc.bind_ok hl, Proc.modify_bind_run]
  refine .guard (fun h => ?_) fun hd => ?_
  · have := h.readable
    simpa [readable] using this
  refine .configure_modify ⟨fun h => h.refused, fun h => ?iff⟩ ?exit fun _ => ?modify
  case exit => rfl
  case modify => rfl
  refine ⟨rfl, ?_, ?_, h⟩
  · simpa [readable] using hd
  · simpa [optionKind, Kind.guards, ArgsState.seen, and_assoc] using hc

/-- A step that chooses no command. -/
theorem Neat.caseEnd {x : Proc ArgsState Unit} (hx : Neat x) {P : Prop} (hP : ¬ P) :
    CaseEnd P s (x s) := by
  rcases (hx.returns s).cases with ⟨a, s', h⟩ | ⟨s', h⟩ <;> rw [h]
  · exact .ok hP (hx.keeps s a s' h)
  · exact .loud hP (hx.loud s s' h)

theorem caseMissingS_end : CaseEnd (Refused E (.missing 'S') s) s (caseMissingS s) := by
  refine .guard (fun h => ?_) fun hc => .configure
    ⟨fun h => h.refused, fun h => ⟨rfl, rfl, ?_, h⟩⟩ rfl
  · simpa [optionKind, Kind.guards, ArgsState.seen, and_assoc] using h.clear
  · simpa [optionKind, Kind.guards, ArgsState.seen, and_assoc] using hc

end Cases

section Handle

variable {E : ArgsEnv} {o : Getopt.Scanned}

theorem handle_helps (ho : helps o = true) : handle E o = caseHelp := by
  unfold handle
  split <;> first | rfl | exact absurd ho (Bool.eq_false_iff.1 rfl)

theorem caseHelp_run (s : ArgsState) :
    caseHelp s = (.fail, { s with stderr := s.stderr ++ [.usage], exitCode := 0 }) := rfl

/-- An option that prints no help fails with an exit code, but where its command is refused. -/
theorem handle_end (ho : helps o = false) (s : ArgsState) :
    CaseEnd (Refused E o s) s (handle E o s) := by
  have hneat : ∀ {x : Proc ArgsState Unit}, (optionKind o).configures = false → Neat x →
      CaseEnd (Refused E o s) s (x s) := fun hk hx =>
    hx.caseEnd s fun h => Bool.false_ne_true (hk.symm.trans h.configures)
  have hok : ∀ {s'}, (optionKind o).configures = false → s'.exitCode = s.exitCode →
      CaseEnd (Refused E o s) s (.ok ⟨⟩, s') := fun hk =>
    .ok fun h => Bool.false_ne_true (hk.symm.trans h.configures)
  rcases o with c | ⟨c, optarg⟩ | c | c
  · have hc : c ∈ ['u', '1', '2', 'x', 'z', 'd', 'v', 'y', 'V'] := by
      simpa only [helps, decide_eq_false_iff_not, not_not] using ho
    simp only [List.mem_cons, List.not_mem_nil, or_false] at hc
    rcases hc with rfl | rfl | rfl | rfl | rfl | rfl | rfl | rfl | rfl
    · exact hneat rfl .caseU
    · exact caseSlot_end s false
    · exact caseSlot_end s true
    · exact caseX_end s
    · exact hneat rfl .caseZ
    · exact hok rfl rfl
    · exact hok rfl rfl
    · exact hok rfl rfl
    · exact hok rfl rfl
  · have hc : c ∈ ['i', 's', 'f', 'a', 'c', 't', 'n', 'm', 'S', 'D', 'o', 'N'] := by
      simpa only [helps, decide_eq_false_iff_not, not_not] using ho
    simp only [List.mem_cons, List.not_mem_nil, or_false] at hc
    rcases hc with rfl | rfl | rfl | rfl | rfl | rfl | rfl | rfl | rfl | rfl | rfl | rfl
    · exact hok rfl rfl
    · exact hok rfl rfl
    · exact hneat rfl (.caseF _)
    · exact hneat rfl (.caseA _)
    · exact hneat rfl (.caseC _)
    · exact caseN_end s rfl rfl (some 'T')
    · exact caseN_end s rfl rfl s.ndefType
    · exact caseM_end s
    · exact caseS_end s
    · exact caseD_end s
    · exact hneat rfl (.bind (.modeOption _) fun _ => .caseO E _)
    · exact hok rfl rfl
  · have hc : c ∈ ['S', 'a', 'c'] := by
      simpa only [helps, decide_eq_false_iff_not, not_not] using ho
    simp only [List.mem_cons, List.not_mem_nil, or_false] at hc
    rcases hc with rfl | rfl | rfl
    · exact caseMissingS_end s
    · exact hok rfl rfl
    · exact hneat rfl .promptAccessCode
  · cases ho

variable {s s' : ArgsState}

/-- The help and a refused command are the options that fail without an exit code. -/
theorem handle_fail {o : Getopt.Scanned} (h : handle E o s = (.fail, s')) (hs : s.exitCode = 0) :
    s'.exitCode = 0 ↔ helps o = true ∨ Refused E o s := by
  rcases ho : helps o with _ | _
  · have hend := handle_end (E := E) ho s
    rw [h] at hend
    rcases hend with ⟨hp, hc⟩ | ⟨hp, hc⟩
    · exact iff_of_false (by rw [hc]; decide) (by simpa using hp)
    · exact iff_of_true (hc.trans hs) (.inr hp)
  · rw [handle_helps ho, caseHelp_run] at h
    exact iff_of_true (by rw [← (Prod.mk.inj h).2]) (.inl rfl)

theorem handle_keeps {o : Getopt.Scanned} (h : handle E o s = (.ok ⟨⟩, s')) :
    s'.exitCode = s.exitCode ∧ helps o = false ∧ ¬ Refused E o s := by
  rcases ho : helps o with _ | _
  · have hend := handle_end (E := E) ho s
    rw [h] at hend
    rcases hend with _ | _ | ⟨hp, hc⟩
    exact ⟨hc, rfl, hp⟩
  · rw [handle_helps ho, caseHelp_run] at h
    cases (Prod.mk.inj h).1

theorem handle_silent {o : Getopt.Scanned} (h : helps o = true ∨ Refused E o s)
    (hs : s.exitCode = 0) : ∃ s', handle E o s = (.fail, s') ∧ s'.exitCode = 0 := by
  rcases hr : handle E o s with ⟨_ | _ | _ | _, s'⟩
  · obtain ⟨-, ho, hp⟩ := handle_keeps hr
    simp [ho, hp] at h
  · exact ⟨s', rfl, (handle_fail hr hs).2 h⟩
  all_goals
    rcases ho : helps o with _ | _
    · have hend := handle_end (E := E) ho s
      rw [hr] at hend
      cases hend
    · rw [handle_helps ho, caseHelp_run] at hr
      cases (Prod.mk.inj hr).1

theorem handle_ne_diverge (o : Getopt.Scanned) (s : ArgsState) : (handle E o s).1 ≠ .diverge := by
  rcases ho : helps o with _ | _
  · have hend := handle_end (E := E) ho s
    intro hd
    rw [Proc.run_eq hd] at hend
    cases hend
  · rw [handle_helps ho, caseHelp_run]
    nofun

end Handle

end YkPers
