import YkPers.Proofs.Frame
import YkPers.ScriptedHost

/-!
# The option loop keeps to the conflict rules

Each case of the loop sets its mark, refuses what its guards name and chooses its command, and
leaves the rest of the view alone (`handle_ok`). A loop that ends therefore went through a
sequence of options that the guards admit, and left the command of its plan.
-/

namespace YkPers

open Guards (Marked Admitted Exclusive)
open Proc (Moves)

/-- The marks, the command and the scan are as before. -/
structure Quiet (s s' : ArgsState) : Prop where
  seen : s'.seen = s.seen
  command : s'.ykp.cfg.command = s.ykp.cfg.command
  getopt : s'.getopt = s.getopt

theorem Quiet.refl (s : ArgsState) : Quiet s s := ⟨rfl, rfl, rfl⟩

theorem Quiet.trans {a b c : ArgsState} (h : Quiet a b) (k : Quiet b c) : Quiet a c :=
  ⟨k.seen.trans h.seen, k.command.trans h.command, k.getopt.trans h.getopt⟩

theorem sameCommand_flagClosed : FlagClosed SameCommand := fun _ _ _ _ _ _ => rfl

theorem quiet : Frame SameCommand Quiet where
  onYkp := ⟨fun _ _ _ h k => k.trans h, fun _ _ h => h.command⟩
  trans _ _ _ h k := h.trans k
  same _ _ h := ⟨h.seen, congrArg (fun y => y.cfg.command) h.ykp, h.getopt⟩
  ykp _ _ h := ⟨rfl, h, rfl⟩

/-- What an option of a kind does where it is accepted; `g` is where the scan goes on. -/
structure Handled (k : Kind) (g : Getopt) (s s' : ArgsState) : Prop where
  clear : ∀ m ∈ k.guards, s.seen m = false
  seen : ∀ m, s'.seen m = (s.seen m || k.mark = some m)
  command : s'.ykp.cfg.command = k.command (s.seen .update) s.ykp.cfg.command
  getopt : s'.getopt = g

theorem Handled.of_quiet {s s' : ArgsState} (h : Quiet s s') :
    Handled .other s.getopt s s' where
  clear := by simp [Kind.guards]
  seen m := by simp [h.seen, Kind.mark]
  command := h.command
  getopt := h.getopt

def ArgsState.setMark (s : ArgsState) : Mark → ArgsState
  | .slot => { s with slotChosen := true }
  | .option => { s with optionSeen := true }
  | .swap => { s with swapSeen := true }
  | .update => { s with updateSeen := true }
  | .ndefRequest => { s with ndefSeen := true }
  | .zap => { s with zap := true }
  | .usbMode => { s with usbModeSeen := true }
  | .scanMap => { s with scanMapSeen := true }
  | .deviceInfo => { s with deviceInfoSeen := true }

theorem ArgsState.seen_setMark (s : ArgsState) (m n : Mark) :
    (s.setMark m).seen n = (s.seen n || m = n) := by
  cases m <;> cases n <;> simp [setMark, seen]

theorem Handled.of_mark {k : Kind} {m : Mark} {g : Getopt} {s t s' : ArgsState}
    (hm : k.mark = some m) (hclear : ∀ n ∈ k.guards, s.seen n = false) (ht : t.seen = s.seen)
    (hs : s'.seen = (t.setMark m).seen)
    (hc : s'.ykp.cfg.command = k.command (s.seen .update) s.ykp.cfg.command)
    (hg : s'.getopt = g) : Handled k g s s' where
  clear := hclear
  seen n := by simp [hs, t.seen_setMark, ht, hm]
  command := hc
  getopt := hg

section Steps

variable {α β : Type} {s s' : ArgsState}

theorem reject_ne_ok {msg : String} (h : reject msg s = (.ok ⟨⟩, s')) : False := by
  have hr : (reject msg s).1 = .fail := rfl
  rw [h] at hr
  cases hr

theorem rejectIf_ok {c : Bool} {msg : String} (h : rejectIf c msg s = (.ok ⟨⟩, s')) :
    c = false ∧ s' = s := by
  cases c with
  | false => exact ⟨rfl, (Prod.mk.inj h).2.symm⟩
  | true => exact (reject_ne_ok h).elim

theorem rejectIf_bind_ok {c : Bool} {msg : String} {f : Unit → Proc ArgsState α} {a : α}
    (h : (rejectIf c msg >>= f) s = (.ok a, s')) : c = false ∧ f ⟨⟩ s = (.ok a, s') := by
  cases c with
  | false => exact ⟨rfl, h⟩
  | true =>
    obtain ⟨_, _, h, -⟩ := Proc.bind_eq_ok.1 h
    exact (reject_ne_ok h).elim

theorem discardSetter_ok {f : Bool → Proc YkpState Unit} (hf : IsSetter f)
    {g : Unit → Proc ArgsState α} {a : α} (h : (discarding (f true) >>= g) s = (.ok a, s')) :
    ∃ t, Quiet s t ∧ g ⟨⟩ t = (.ok a, s') := by
  obtain ⟨_, t, ht, h⟩ :=
    (quiet.steps.discarding (quiet.onYkp.setter sameCommand_flagClosed hf true)).bind_eq_ok h
  exact ⟨t, ht, h⟩

theorem configureCommand_ok {command : UInt8}
    (h : onYkp (ykpConfigureCommand command) s = (.ok ⟨⟩, s')) :
    s'.seen = s.seen ∧ s'.ykp.cfg.command = command ∧ s'.getopt = s.getopt := by
  obtain ⟨h1, rfl⟩ := Prod.mk.inj h
  exact ⟨rfl, (ykpConfigureCommand_ok (Prod.ext h1 rfl)).2, rfl⟩

end Steps

section Cases

variable {E : ArgsEnv} {optarg : List Char} {s s' : ArgsState}

theorem caseU_ok (h : caseU s = (.ok ⟨⟩, s')) : Handled .update s.getopt s s' := by
  unfold caseU at h
  rw [Proc.get_bind_run] at h
  obtain ⟨h1, h⟩ := rejectIf_bind_ok h
  obtain ⟨h2, h⟩ := rejectIf_bind_ok h
  obtain ⟨h3, h⟩ := rejectIf_bind_ok h
  obtain rfl : s.setMark .update = s' := (Prod.mk.inj h).2
  refine .of_mark (t := s) rfl ?_ rfl rfl rfl rfl
  simpa [Kind.guards, ArgsState.seen] using ⟨h1, h2, h3⟩

/-- `-1` or, where `second`, `-2`. -/
def slotKind (second : Bool) : Kind := if second then .slot2 else .slot1

theorem slotCommand_ok {second : Bool} {c d : UInt8} (h : slotCommand second s = (.ok c, s')) :
    Quiet s s' ∧ c = (slotKind second).command s.updateSeen d := by
  unfold slotCommand at h
  rw [Proc.get_bind_run] at h
  by_cases h1 : s.updateSeen = true
  · rw [if_pos h1] at h
    obtain ⟨t, ht, h⟩ := discardSetter_ok (isSetter_get .ext 5 rfl) h
    obtain ⟨hc, rfl⟩ := Prod.mk.inj h
    rw [← Ret.ok.inj hc]
    exact ⟨ht, by cases second <;> simp [slotKind, Kind.command, h1]⟩
  · rw [if_neg h1] at h
    cases second with
    | true =>
      rw [if_pos rfl] at h
      obtain ⟨t, ht, h⟩ := discardSetter_ok (isSetter_get .cfg 13 rfl) h
      obtain ⟨u, hu, h⟩ := discardSetter_ok (isSetter_get .cfg 15 rfl) h
      obtain ⟨v, hv, h⟩ := discardSetter_ok (isSetter_get .cfg 16 rfl) h
      obtain ⟨w, hw, h⟩ := discardSetter_ok (isSetter_get .cfg 17 rfl) h
      obtain ⟨hc, rfl⟩ := Prod.mk.inj h
      rw [← Ret.ok.inj hc]
      refine ⟨((ht.trans hu).trans hv).trans hw, ?_⟩
      simp [slotKind, Kind.command, h1]
    | false =>
      rw [if_neg Bool.false_ne_true] at h
      obtain ⟨hc, rfl⟩ := Prod.mk.inj h
      rw [← Ret.ok.inj hc]
      exact ⟨.refl s, by simp [slotKind, Kind.command, h1]⟩

theorem caseSlot_ok {second : Bool} (h : caseSlot second s = (.ok ⟨⟩, s')) :
    Handled (slotKind second) s.getopt s s' := by
  unfold caseSlot at h
  rw [Proc.get_bind_run] at h
  obtain ⟨h1, h⟩ := rejectIf_bind_ok h
  obtain ⟨h2, h⟩ := rejectIf_bind_ok h
  obtain ⟨h3, h⟩ := rejectIf_bind_ok h
  obtain ⟨t, ht, h⟩ := discardSetter_ok (isSetter_get .tkt 5 rfl) h
  obtain ⟨c, u, hc, h⟩ := Proc.bind_eq_ok.1 h
  obtain ⟨hu, rfl⟩ := slotCommand_ok (d := s.ykp.cfg.command) hc
  obtain ⟨_, v, hv, h⟩ := Proc.bind_eq_ok.1 h
  obtain ⟨v1, v2, v3⟩ := configureCommand_ok hv
  obtain rfl : v.setMark .slot = s' := (Prod.mk.inj h).2
  have hq := ht.trans hu
  have hup : t.updateSeen = s.updateSeen := congrFun ht.seen .update
  have hclear : ∀ n ∈ (slotKind second).guards, s.seen n = false := by
    cases second <;> simpa [slotKind, Kind.guards, ArgsState.seen] using ⟨h1, h2, h3⟩
  exact .of_mark (by cases second <;> rfl) hclear (v1.trans hq.seen) rfl
    (v2.trans (by rw [hup]; rfl)) (v3.trans hq.getopt)

theorem caseX_ok (h : caseX s = (.ok ⟨⟩, s')) : Handled .swap s.getopt s s' := by
  unfold caseX at h
  rw [Proc.get_bind_run] at h
  obtain ⟨h1, h⟩ := rejectIf_bind_ok h
  obtain ⟨_, t, ht, h⟩ := Proc.bind_eq_ok.1 h
  obtain ⟨t1, t2, t3⟩ := configureCommand_ok ht
  obtain rfl : t.setMark .swap = s' := (Prod.mk.inj h).2
  refine .of_mark rfl ?_ t1 rfl t2 t3
  simpa [Kind.guards, ArgsState.seen, and_assoc] using h1

theorem caseZ_ok (h : caseZ s = (.ok ⟨⟩, s')) : Handled .zap s.getopt s s' := by
  unfold caseZ at h
  rw [Proc.get_bind_run] at h
  obtain ⟨h1, h⟩ := rejectIf_bind_ok h
  obtain rfl : s.setMark .zap = s' := (Prod.mk.inj h).2
  refine .of_mark (t := s) rfl ?_ rfl rfl rfl rfl
  simpa [Kind.guards, ArgsState.seen, and_assoc] using h1

theorem caseN_ok (h : caseN E optarg s = (.ok ⟨⟩, s')) : Handled .ndefRequest s.getopt s s' := by
  unfold caseN at h
  rw [Proc.modify_bind_run, Proc.get_bind_run] at h
  obtain ⟨h1, h⟩ := rejectIf_bind_ok h
  obtain ⟨_, t, ht, h⟩ := Proc.bind_eq_ok.1 h
  obtain ⟨t1, t2, t3⟩ := configureCommand_ok ht
  obtain rfl := (Prod.mk.inj h).2
  refine .of_mark (t := t) rfl ?_ t1 rfl t2 t3
  simpa [Kind.guards, ArgsState.seen, and_assoc] using h1

theorem caseT_ok (h : caseT E optarg s = (.ok ⟨⟩, s')) : Handled .ndefRequest s.getopt s s' := by
  unfold caseT at h
  rw [Proc.modify_bind_run] at h
  have hn := caseN_ok h
  exact ⟨hn.clear, hn.seen, hn.command, hn.getopt⟩

theorem caseM_ok (h : caseM optarg s = (.ok ⟨⟩, s')) : Handled .usbMode s.getopt s s' := by
  unfold caseM at h
  rw [Proc.get_bind_run] at h
  obtain ⟨h1, h⟩ := rejectIf_bind_ok h
  rcases hv : scanUsbMode optarg with _ | v <;> rw [hv] at h
  · exact (reject_ne_ok h).elim
  · simp only [Proc.modify_bind_run] at h
    obtain ⟨t1, t2, t3⟩ := configureCommand_ok h
    have hv : (storeUsbMode v s).seen = s.seen ∧ (storeUsbMode v s).getopt = s.getopt := by
      rcases v with ⟨m, _ | ⟨c, _ | a⟩⟩ <;> exact ⟨rfl, rfl⟩
    refine .of_mark rfl ?_ hv.1 t1 t2 (t3.trans hv.2)
    simpa [Kind.guards, ArgsState.seen, and_assoc] using h1

theorem caseS_ok (h : caseS E optarg s = (.ok ⟨⟩, s')) : Handled .scanMap s.getopt s s' := by
  unfold caseS at h
  rw [Proc.get_bind_run] at h
  obtain ⟨h1, h⟩ := rejectIf_bind_ok h
  obtain ⟨_, t, ht, h⟩ := Moves.bind_eq_ok (quiet.steps.noteDecode _ _) h
  rw [Proc.modify_bind_run] at h
  obtain ⟨-, h⟩ := rejectIf_bind_ok h
  obtain ⟨t1, t2, t3⟩ := configureCommand_ok h
  refine .of_mark rfl ?_ ht.seen t1 t2 (t3.trans ht.getopt)
  simpa [Kind.guards, ArgsState.seen, and_assoc] using h1

theorem caseMissingS_ok (h : caseMissingS s = (.ok ⟨⟩, s')) :
    Handled .scanReset s.getopt s s' := by
  unfold caseMissingS at h
  rw [Proc.get_bind_run] at h
  obtain ⟨h1, h⟩ := rejectIf_bind_ok h
  obtain ⟨t1, t2, t3⟩ := configureCommand_ok h
  refine .of_mark (t := s) rfl ?_ rfl t1 t2 t3
  simpa [Kind.guards, ArgsState.seen, and_assoc] using h1

theorem caseD_ok (h : caseD E optarg s = (.ok ⟨⟩, s')) : Handled .deviceInfo s.getopt s s' := by
  unfold caseD at h
  rw [Proc.get_bind_run] at h
  obtain ⟨h1, h⟩ := rejectIf_bind_ok h
  obtain ⟨_, t, ht, h⟩ := Moves.bind_eq_ok (quiet.steps.noteDecode _ _) h
  rw [Proc.modify_bind_run] at h
  obtain ⟨-, h⟩ := rejectIf_bind_ok h
  obtain ⟨_, u, hu, h⟩ := Proc.bind_eq_ok.1 h
  obtain ⟨u1, u2, u3⟩ := configureCommand_ok hu
  obtain rfl : u.setMark .deviceInfo = s' := (Prod.mk.inj h).2
  refine .of_mark rfl ?_ (u1.trans ht.seen) rfl u2 (u3.trans ht.getopt)
  simpa [Kind.guards, ArgsState.seen, and_assoc] using h1

theorem caseA_ok (h : caseA optarg s = (.ok ⟨⟩, s')) :
    Handled .other (resume s.getopt (.arg 'a' optarg)) s s' := by
  unfold caseA at h
  split_ifs at h with ho <;> obtain rfl := (Prod.mk.inj h).2
  · exact ⟨by simp [Kind.guards], fun m => by simp [Kind.mark]; rfl, rfl, by simp [resume, ho]⟩
  · exact ⟨by simp [Kind.guards], fun m => by simp [Kind.mark]; rfl, rfl, by simp [resume, ho]⟩

theorem caseC_ok (h : caseC optarg s = (.ok ⟨⟩, s')) :
    Handled .other (resume s.getopt (.arg 'c' optarg)) s s' := by
  unfold caseC at h
  split_ifs at h with ho
  · have hq := Moves.of_eq_ok quiet.promptAccessCode h
    exact ⟨by simp [Kind.guards], fun m => by simp [Kind.mark, hq.seen]; rfl, hq.command,
      by simp [resume, ho, hq.getopt]⟩
  · obtain rfl := (Prod.mk.inj h).2
    exact ⟨by simp [Kind.guards], fun m => by simp [Kind.mark]; rfl, rfl, by simp [resume, ho]⟩

end Cases

/-! ## `-o` -/

section Option

variable (E : ArgsEnv) {optarg : List Char}

theorem caseO_ok {s s' : ArgsState} (h : caseO E optarg s = (.ok ⟨⟩, s')) :
    s.zap = false ∧ Quiet s s' := by
  refine ⟨?_, Moves.of_eq_ok (quiet.caseO E optarg sameCommand_flagClosed) h⟩
  unfold caseO at h
  rw [Proc.get_bind_run] at h
  exact (rejectIf_bind_ok h).1

theorem modeOption_ok {s s' : ArgsState} (h : modeOption optarg s = (.ok ⟨⟩, s')) :
    s'.seen = (s.setMark .option).seen ∧ s'.ykp.cfg.command = s.ykp.cfg.command ∧
      s'.getopt = s.getopt := by
  unfold modeOption at h
  split_ifs at h with hm
  · rw [Proc.get_bind_run] at h
    obtain ⟨-, h⟩ := rejectIf_bind_ok h
    obtain ⟨-, h⟩ := rejectIf_bind_ok h
    obtain rfl := (Prod.mk.inj h).2
    exact ⟨rfl, rfl, rfl⟩
  · obtain rfl := (Prod.mk.inj h).2
    exact ⟨rfl, rfl, rfl⟩

theorem option_ok {s s' : ArgsState}
    (h : (modeOption optarg >>= fun _ => caseO E optarg) s = (.ok ⟨⟩, s')) :
    Handled .option s.getopt s s' := by
  obtain ⟨_, t, ht, h⟩ := Proc.bind_eq_ok.1 h
  obtain ⟨t1, t2, t3⟩ := modeOption_ok ht
  obtain ⟨hz, hq⟩ := caseO_ok E h
  have hzap : s.zap = false := (congrFun t1 .zap).symm.trans hz
  refine .of_mark (t := s) rfl ?_ rfl (hq.seen.trans t1) (hq.command.trans t2)
    (hq.getopt.trans t3)
  simpa [Kind.guards, ArgsState.seen] using hzap

end Option

/-! ## The loop -/

section Loop

variable {E : ArgsEnv}

theorem handle_ok {o : Getopt.Scanned} {s s' : ArgsState} (h : handle E o s = (.ok ⟨⟩, s')) :
    Handled (optionKind o) (resume s.getopt o) s s' := by
  unfold handle at h
  split at h
  · exact caseU_ok h
  · exact caseSlot_ok h
  · exact caseSlot_ok h
  · exact caseX_ok h
  · exact caseZ_ok h
  · exact .of_quiet (Moves.of_eq_ok (fun _ => ⟨rfl, rfl, rfl⟩) h)
  · exact .of_quiet (Moves.of_eq_ok (fun _ => ⟨rfl, rfl, rfl⟩) h)
  · exact .of_quiet (Moves.of_eq_ok (quiet.steps.caseF _) h)
  · exact caseA_ok h
  · exact caseC_ok h
  · exact caseT_ok h
  · exact caseN_ok h
  · exact caseM_ok h
  · exact caseS_ok h
  · exact caseD_ok h
  · exact option_ok E h
  · exact .of_quiet (Moves.of_eq_ok (fun _ => ⟨rfl, rfl, rfl⟩) h)
  · exact .of_quiet (Moves.of_eq_ok (fun _ => ⟨rfl, rfl, rfl⟩) h)
  · exact .of_quiet (Moves.of_eq_ok (fun _ => ⟨rfl, rfl, rfl⟩) h)
  · exact .of_quiet (Moves.of_eq_ok (quiet.steps.pure _) h)
  · exact .of_quiet (Moves.of_eq_ok (quiet.steps.pure _) h)
  · exact caseMissingS_ok h
  · exact .of_quiet (Moves.of_eq_ok (fun _ => ⟨rfl, rfl, rfl⟩) h)
  · exact .of_quiet (Moves.of_eq_ok quiet.promptAccessCode h)
  · cases (Prod.mk.inj h).1

/-- The state after a sequence of options: they were admitted, their marks are set, and the
command is the one of their plan. -/
structure Tracks (ks : List Kind) (s : ArgsState) : Prop where
  admitted : Admitted Kind.mark Kind.guards ks
  seen : ∀ m, s.seen m = true ↔ Marked Kind.mark ks m
  command : s.ykp.cfg.command = (plan ks).command

theorem tracks_nil {s : ArgsState} (hs : ∀ m, s.seen m = false) (hc : s.ykp.cfg.command = 0) :
    Tracks [] s where
  admitted := List.Pairwise.nil
  seen m := by simp [hs, Marked]
  command := hc

theorem Tracks.handled {ks : List Kind} {k : Kind} {g : Getopt} {s s' : ArgsState}
    (ht : Tracks ks s) (h : Handled k g s s') : Tracks (ks ++ [k]) s' where
  admitted := by
    refine Guards.admitted_concat.2 ⟨ht.admitted, fun m hm => ?_⟩
    rw [← ht.seen, h.clear m hm]
    exact Bool.false_ne_true
  seen m := by
    rw [h.seen, Bool.or_eq_true, ht.seen, decide_eq_true_iff, Guards.marked_concat]
  command := by
    have hup : s.seen .update = (plan ks).updated := by
      rw [Bool.eq_iff_iff, ht.seen, plan_updated]
    rw [h.command, ht.command, hup, plan_concat]
    rfl

/-- What the last option that says something says. -/
def lastOf {α : Type} (f : Getopt.Scanned → Option α) (os : List Getopt.Scanned) : Option α :=
  (os.filterMap f).getLast?

section LastOf

variable {α : Type} {f : Getopt.Scanned → Option α} {os : List Getopt.Scanned} {o : Getopt.Scanned}

theorem lastOf_concat_none (h : f o = none) : lastOf f (os ++ [o]) = lastOf f os := by
  simp [lastOf, List.filterMap_append, h]

theorem lastOf_concat_some {a : α} (h : f o = some a) : lastOf f (os ++ [o]) = some a := by
  simp [lastOf, List.filterMap_append, h]

theorem lastOf_mem {a : α} (h : lastOf f os = some a) : ∃ o ∈ os, f o = some a :=
  List.mem_filterMap.1 (List.mem_of_getLast? h)

theorem lastOf_eq_none : lastOf f os = none ↔ ∀ o ∈ os, f o = none := by
  rw [lastOf, List.getLast?_eq_none_iff, List.filterMap_eq_nil_iff]

end LastOf

/-- What holds of the state and of the options so far, and is kept by each option, holds behind the
loop. -/
theorem optionLoop_scans {P : List Getopt.Scanned → ArgsState → Prop}
    (hgetopt : ∀ os s g, P os s → P os { s with getopt := g })
    (hstep : ∀ os o s s', P os s → handle E o s = (.ok ⟨⟩, s') → P (os ++ [o]) s') :
    ∀ (fuel : ℕ) (os : List Getopt.Scanned) {s s' : ArgsState}, P os s →
      optionLoop E fuel s = (.ok ⟨⟩, s') → P (os ++ scans fuel s.getopt) s'
  | 0, _, _, _, _, h => by cases (Prod.mk.inj h).1
  | fuel + 1, os, s, s', hp, h => by
    have hn : nextOption s = (.ok (s.getopt.getopt optstring).1,
      { s with getopt := (s.getopt.getopt optstring).2 }) := rfl
    rw [optionLoop, Proc.bind_ok hn] at h
    rcases hg : s.getopt.getopt optstring with ⟨_ | o, g⟩ <;> rw [hg] at h <;>
      simp only [scans, hg]
    · obtain rfl := (Prod.mk.inj h).2
      rw [List.append_nil]
      exact hgetopt os s g hp
    · obtain ⟨_, t, h1, h2⟩ := Proc.bind_eq_ok.1 h
      have hk := optionLoop_scans hgetopt hstep fuel _ (hstep os o _ t (hgetopt os s g hp) h1) h2
      rwa [(handle_ok h1).getopt, List.append_assoc] at hk

theorem optionLoop_ok (fuel : ℕ) {s s' : ArgsState} (ht : Tracks [] s)
    (h : optionLoop E fuel s = (.ok ⟨⟩, s')) : Tracks (options fuel s.getopt) s' := by
  rw [options_eq]
  refine optionLoop_scans (P := fun os s => Tracks (os.map optionKind) s) (fun os s g ht => ?_)
    (fun os o s s' ht h => ?_) fuel [] ht h
  · exact ⟨ht.admitted, ht.seen, ht.command⟩
  · rw [List.map_append]
    exact ht.handled (handle_ok h)

end Loop

/-! ## The whole of `args_to_config` -/

section Whole

variable {E : ArgsEnv} {s s' : ArgsState}

/-- An accepted command line has gone through its loop, from the version of the key, and through
what comes behind it. -/
theorem argsToConfig_parts {fuel : ℕ} {argv : List (List Char)} {stdin : List Char}
    {scanCodes deviceInfo : List UInt8}
    (h : argsToConfig E fuel (.fresh argv stdin scanCodes deviceInfo) = (.ok ⟨⟩, s')) :
    ∃ t u v, optionLoop E fuel { ArgsState.fresh argv stdin scanCodes deviceInfo with
        ykp := (ykpConfigureVersion E.st ⟨ykpAlloc, none⟩).2 } = (.ok ⟨⟩, t) ∧
      checkAction t = (.ok ⟨⟩, u) ∧ checkUpdate u = (.ok ⟨⟩, v) ∧
        keySection E fuel v = (.ok ⟨⟩, s') := by
  rw [argsToConfig, declareLocals, Proc.modify_bind_run] at h
  obtain ⟨_, r, hr, h⟩ := Proc.bind_eq_ok.1 h
  obtain rfl := (Prod.mk.inj hr).2
  obtain ⟨_, t, ht, h⟩ := Proc.bind_eq_ok.1 h
  obtain ⟨_, u, hu, h⟩ := Proc.bind_eq_ok.1 h
  obtain ⟨_, v, hv, h⟩ := Proc.bind_eq_ok.1 h
  exact ⟨t, u, v, ht, hu, hv, h⟩

/-- Behind the loop, what the checks and the key leave alone is as it is there. -/
theorem steps_behindLoop {Q : YkpState → YkpState → Prop} {R : ArgsState → ArgsState → Prop}
    (F : StepFrame Q R) {fuel : ℕ} {t u v : ArgsState} (hsection : Moves R (keySection E fuel))
    (hu : checkAction t = (.ok ⟨⟩, u)) (hv : checkUpdate u = (.ok ⟨⟩, v))
    (hs : keySection E fuel v = (.ok ⟨⟩, s')) : R t s' :=
  F.trans _ _ _ (F.trans _ _ _ (F.checkAction.of_eq_ok hu) (F.checkUpdate.of_eq_ok hv))
    (hsection.of_eq_ok hs)

theorem frame_behindLoop {Q : YkpState → YkpState → Prop} {R : ArgsState → ArgsState → Prop}
    (F : Frame Q R) {fuel : ℕ} {t u v : ArgsState} (hu : checkAction t = (.ok ⟨⟩, u))
    (hv : checkUpdate u = (.ok ⟨⟩, v)) (hs : keySection E fuel v = (.ok ⟨⟩, s')) : R t s' :=
  steps_behindLoop F.steps (F.keySection E fuel) hu hv hs

/-- The conflict rules hold of the options of an accepted command line, and the command is the
one that their plan chooses. -/
theorem argsToConfig_ok {fuel : ℕ} {argv : List (List Char)} {stdin : List Char}
    {scanCodes deviceInfo : List UInt8}
    (h : argsToConfig E fuel (.fresh argv stdin scanCodes deviceInfo) = (.ok ⟨⟩, s')) :
    Tracks (options fuel (Getopt.start argv)) s' := by
  obtain ⟨t, u, v, ht, hu, hv, h⟩ := argsToConfig_parts h
  have htracks := optionLoop_ok fuel (tracks_nil (fun m => by cases m <;> rfl) rfl) ht
  have hq := frame_behindLoop quiet hu hv h
  refine ⟨htracks.admitted, fun m => ?_, hq.command.trans htracks.command⟩
  rw [hq.seen]
  exact htracks.seen m

/-- An accepted command line with `-n` or `-t` asks for the NDEF record of its slot exactly when
nothing behind the slot option is missing or repeated. -/
theorem ndef_command_iff {fuel : ℕ} {argv : List (List Char)} {stdin : List Char}
    {scanCodes deviceInfo : List UInt8}
    (h : argsToConfig E fuel (.fresh argv stdin scanCodes deviceInfo) = (.ok ⟨⟩, s'))
    (hn : Kind.ndefRequest ∈ options fuel (Getopt.start argv)) :
    s'.ykp.cfg.command
        = (if Kind.slot2 ∈ options fuel (Getopt.start argv) then slotNdef2 else slotNdef)
      ↔ KeepsNdef (options fuel (Getopt.start argv)) := by
  have ht := argsToConfig_ok h
  rw [ht.command]
  exact command_ndef_iff ht.admitted hn

/-- In an accepted command line the actions exclude each other, and the options they must not
meet, and each is left with its command, exactly when no two options come in an order that is not
guarded. -/
theorem actions_exclusive_iff {fuel : ℕ} {argv : List (List Char)} {stdin : List Char}
    {scanCodes deviceInfo : List UInt8}
    (h : argsToConfig E fuel (.fresh argv stdin scanCodes deviceInfo) = (.ok ⟨⟩, s')) :
    (Exclusive Conflict Kind.mark (options fuel (Getopt.start argv)) ∧
      ∀ m : Mark, m.isAction = true → Marked Kind.mark (options fuel (Getopt.start argv)) m →
        s'.ykp.cfg.command = m.command)
      ↔ (options fuel (Getopt.start argv)).Pairwise fun e l => e.unguarded l = false := by
  have ht := argsToConfig_ok h
  rw [← exclusive_iff ht.admitted, ht.command]
  exact ⟨fun hx => hx.1, fun hx => ⟨hx, fun m hm hk => command_of_exclusive hx hm hk⟩⟩

end Whole

section Runs

open ScriptedHost (env start)

theorem ndef_command_iff_ndef2 :
    (argsToConfig (env 3 0 0) 10 (start ["ykpersonalize", "-2", "-nhttp://a"])).2.ykp.cfg.command
        = (if Kind.slot2 ∈ options 10 (start ["ykpersonalize", "-2", "-nhttp://a"]).getopt
            then slotNdef2 else slotNdef)
      ↔ KeepsNdef (options 10 (start ["ykpersonalize", "-2", "-nhttp://a"]).getopt) :=
  ndef_command_iff (Proc.run_eq (by decide +kernel)) (by decide +kernel)

/-- `-1` behind `-n` writes a configuration with a random key; a second `-n` behind `-2` asks for
the record of the other slot. -/
theorem ndef_command_lost :
    ((argsToConfig (env 3 0 0) 10 (start ["ykpersonalize", "-nhttp://a", "-1"])).1 = .ok ⟨⟩ ∧
      Kind.ndefRequest ∈ options 10 (start ["ykpersonalize", "-nhttp://a", "-1"]).getopt ∧
      (argsToConfig (env 3 0 0) 10
        (start ["ykpersonalize", "-nhttp://a", "-1"])).2.ykp.cfg.command = slotConfig) ∧
    (argsToConfig (env 3 0 0) 10 (start ["ykpersonalize", "-2", "-na", "-nb"])).1 = .ok ⟨⟩ ∧
      Kind.slot2 ∈ options 10 (start ["ykpersonalize", "-2", "-na", "-nb"]).getopt ∧
      (argsToConfig (env 3 0 0) 10
        (start ["ykpersonalize", "-2", "-na", "-nb"])).2.ykp.cfg.command = slotNdef := by
  decide +kernel

theorem actions_exclusive_iff_usb_mode :
    (Exclusive Conflict Kind.mark (options 10 (start ["ykpersonalize", "-m82"]).getopt) ∧
      ∀ m : Mark, m.isAction = true →
        Marked Kind.mark (options 10 (start ["ykpersonalize", "-m82"]).getopt) m →
        (argsToConfig (env 3 0 0) 10 (start ["ykpersonalize", "-m82"])).2.ykp.cfg.command
          = m.command)
      ↔ (options 10 (start ["ykpersonalize", "-m82"]).getopt).Pairwise
          fun e l => e.unguarded l = false :=
  actions_exclusive_iff (Proc.run_eq (by decide +kernel))

/-- `-1` behind `-m` replaces the mode switch by a slot configuration; the other order is
refused. -/
theorem usb_mode_replaced :
    (argsToConfig (env 3 0 0) 10 (start ["ykpersonalize", "-m82", "-1"])).1 = .ok ⟨⟩ ∧
      (argsToConfig (env 3 0 0) 10 (start ["ykpersonalize", "-m82", "-1"])).2.ykp.cfg.command
        = slotConfig ∧
      ¬ Exclusive Conflict Kind.mark
        (options 10 (start ["ykpersonalize", "-m82", "-1"]).getopt) ∧
      (argsToConfig (env 3 0 0) 10 (start ["ykpersonalize", "-1", "-m82"])).1 = .fail := by
  refine ⟨by decide +kernel, by decide +kernel, fun hx => ?_, by decide +kernel⟩
  exact hx .usbMode .slot ⟨.usbMode, by decide +kernel, rfl⟩ ⟨.slot1, by decide +kernel, rfl⟩
    (by decide)

end Runs

end YkPers
