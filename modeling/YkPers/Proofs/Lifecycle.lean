import YkPers.Lib.Triple
import YkPers.Lifecycle
import YkPers.Proofs.SameRun

/-!
# The program keeps to the life of a session

Over a backend with a life cycle, `ykpersonalize` makes every call in its phase, and where it
returns, the key is closed and the backend stopped, however the calls ended. The one exception is
the `exit` where the output cannot be opened (`ykpersonalize_lifecycle`).
-/

namespace YkPers

open Proc (Sim Triple)

variable {σ α : Type} {U : Usb σ} {I : KeyPhase → σ → Prop}

theorem Leads.keeps {f : σ → Except (Option YkErr) α × σ} {P : σ → Prop} (h : Leads f P P P) :
    Answers (fun d d' => d = d' ∧ P d) f f := by
  rintro d _ ⟨rfl, hd⟩
  have := h d hd
  rcases hf : f d with ⟨_ | _, d'⟩ <;> rw [hf] at this <;> exact ⟨rfl, rfl, this⟩

theorem Lifecycle.hostSim (L : Lifecycle U I) :
    HostSim (fun d d' => d = d' ∧ I .opened d) U.toHost U.toHost where
  endian := rfl
  yubikeyCrc16 := rfl
  read := L.read.keeps
  write r := (L.write r).keeps

section World

theorem triple_busCall {f : σ → Except (Option YkErr) Unit × σ} {P Q E : σ → Prop}
    (h : Leads f P Q E) (F : World σ → Prop) : Triple (fun w => P w.dev) (busCall f)
      (fun _ w => Q w.dev) (fun w => E w.dev) F := by
  intro w hw
  have := h w.dev hw
  unfold busCall
  rcases hf : f w.dev with ⟨_ | _, d'⟩ <;> rw [hf] at this <;> exact this

theorem sameWorld_self {P : σ → Prop} (w : World σ) (h : P w.dev) :
    SameWorld (fun d d' => d = d' ∧ P d) w w := ⟨⟨rfl, h⟩, rfl, rfl⟩

theorem keeps_ykGetStatus (L : Lifecycle U I) (w : World σ) (h : I .opened w.dev) :
    I .opened (ykGetStatus U.toHost w).2.dev :=
  L.hostSim.ykGetStatus.keeps (I := fun w => I .opened w.dev) sameWorld_self
    (fun _ _ h => h.dev.2) h

/-- A status that cannot be got closes the key again. -/
theorem triple_ykOpenKey (L : Lifecycle U I) (index : ℤ) : Triple (fun w => I .up w.dev)
    (ykOpenKey U index) (fun _ w => I .opened w.dev) (fun w => I .up w.dev)
    (fun w => I .opened w.dev) := by
  have hopen := fun vendorId => (triple_busCall (L.openDevice vendorId index)
    fun w => I .opened w.dev).attempt (D := fun w => I .up w.dev)
  have hclose := (triple_busCall L.closeDevice fun w => I .opened w.dev).attempt_same
    (E := fun w => I .up w.dev)
  have hstatus := (Triple.of_keeps (keeps_ykGetStatus L)).attempt_same (E := fun w => I .up w.dev)
  refine .bind (hopen _) fun found => .ite
    (fun hsome => .bind (Q := Proc.OrElse _ _) (.pure fun _ h => h) fun found => ?_)
    fun hnone => .bind (Q := fun _ w => I .up w.dev) ?_ fun _ => .bind (hopen _) fun found => ?_
  rotate_left
  · cases found with
    | none => exact .modify fun _ h => h
    | some _ => cases hnone rfl
  all_goals
    -- behind both attempts to open a device
    cases found with
    | none => exact .fail fun _ h => h
    | some _ =>
      refine .get_bind fun w => .bind (Q := fun _ w => I .opened w.dev) ?_ fun st => ?_
      · exact fun t ht => hstatus t ht.2
      cases st with
      | some _ => exact .modify fun _ h => h
      | none =>
        exact .get_bind fun w => .bind (fun t ht => hclose t ht.2) fun _ =>
          .bind (Q := fun _ w => I .up w.dev) (.modify fun _ h => h) fun _ => .fail fun _ h => h

end World

section Main

variable {k : Bool} {P E F : σ → Prop} {Q : α → σ → Prop} (M : MainEnv)

/-- `keyOpen` is `k`, and the device satisfies `P`. -/
def KeyIs (k : Bool) (P : σ → Prop) (m : MainState σ) : Prop :=
  m.keyOpen = k ∧ P m.session.world.dev

/-- What `leave` has to let go: the open key, or a backend that may have been started. -/
def Held (I : KeyPhase → σ → Prop) (m : MainState σ) : Prop :=
  KeyIs true (I .opened) m ∨ KeyIs false (fun d => I .down d ∨ I .up d) m

def InPhase (I : KeyPhase → σ → Prop) (m : MainState σ) : Prop := ∃ p, I p m.session.world.dev

theorem Held.inPhase {m : MainState σ} (h : Held I m) : InPhase I m := by
  rcases h with ⟨-, h⟩ | ⟨-, h | h⟩ <;> exact ⟨_, h⟩

theorem keeps_keyIs {x : Proc (MainState σ) α}
    (hx : Sim (SameRun (fun d d' => d = d' ∧ P d) (· = k)) x x) (m : MainState σ)
    (h : KeyIs k P m) : KeyIs k P (x m).2 :=
  hx.keeps (fun _ h => ⟨⟨rfl, sameWorld_self _ h.2⟩, rfl, h.1, rfl, rfl, rfl, rfl⟩)
    (fun _ _ h => ⟨h.known, h.session.world.dev.2⟩) h

theorem triple_onKey {x : Yk σ α} (hx : Triple (fun w => P w.dev) x (fun a w => Q a w.dev)
      (fun w => E w.dev) fun w => F w.dev) :
    Triple (KeyIs k P) (onSession (onKey x)) (fun a => KeyIs k (Q a)) (KeyIs k E) (KeyIs k F) := by
  rintro m ⟨hk, hp⟩
  have h := hx m.session.world hp
  have hrun : onSession (onKey x) m = ((x m.session.world).1,
      { m with session := { m.session with world := (x m.session.world).2 } }) := rfl
  rw [hrun]
  rcases hr : x m.session.world with ⟨_ | _ | _ | _, w⟩ <;> rw [hr] at h <;> exact ⟨hk, h⟩

theorem triple_orErrOne {x : Yk σ α} (hx : Triple (fun w => P w.dev) x (fun a w => Q a w.dev)
      (fun w => E w.dev) fun w => F w.dev) :
    Triple (KeyIs k P) (orErrOne x) (fun a => KeyIs k (Q a)) (KeyIs k E) (KeyIs k F) := by
  refine .bind (triple_onKey hx).attempt fun r => ?_
  cases r with
  | some a => exact .pure fun _ h => h
  | none => exact .bind (Q := fun _ => KeyIs k E) (.modify fun _ h => h) fun _ => .fail fun _ h => h

/-- What makes transfers only keeps an open key. -/
theorem triple_transfers {x : Proc (MainState σ) α}
    (hx : Sim (SameRun (fun d d' => d = d' ∧ I .opened d) (· = true)) x x) :
    Triple (KeyIs true (I .opened)) x (fun _ => KeyIs true (I .opened)) (Held I) (InPhase I) :=
  (Triple.of_keeps (keeps_keyIs hx)).mono (fun _ h => .inl h) fun _ h => ⟨_, h.2⟩

theorem triple_openKey (L : Lifecycle U I) (keyIndex : ℤ) : Triple (KeyIs false (I .down))
    (openKey U keyIndex) (fun _ => KeyIs true (I .opened)) (Held I) (InPhase I) := by
  have hstart := triple_orErrOne (k := false) (triple_busCall L.start fun w => I .up w.dev)
  have hopen := triple_orErrOne (k := false) (triple_ykOpenKey L keyIndex)
  refine .bind (hstart.mono (fun _ h => .inr ⟨h.1, .inl h.2⟩) fun _ h => ⟨_, h.2⟩) fun _ =>
    .bind (hopen.mono (fun _ h => .inr ⟨h.1, .inr h.2⟩) fun _ h => ⟨_, h.2⟩) fun _ =>
      .bind (Q := fun _ => KeyIs true (I .opened)) (.modify fun _ h => ⟨rfl, h.2⟩) fun _ =>
        triple_transfers ?_
  exact .bind (sim_runFrame.orErrOne (sim_onKey L.hostSim.ykGetStatus).attempt) fun st =>
    .bind (sim_runFrame.printStatus st) fun _ =>
      .bind (sim_runFrame.checkFirmware st) fun _ => .pure _

/-- The file for the output cannot be opened. -/
def Unwritable (s : ArgsState) : Prop :=
  ∃ name message, s.outfname = some name ∧ M.writeFile name = .error message

theorem triple_openOutput : Triple (KeyIs true (I .opened)) (openOutput M)
    (fun outf m => KeyIs true (I .opened) m ∧
      ∀ code, outf = .exit code → code = 1 ∧ Unwritable M m.session.args)
    (Held I) (InPhase I) := by
  rintro m hm
  unfold openOutput
  rw [Proc.get_bind_run]
  cases hname : m.session.args.outfname with
  | none => exact ⟨hm, fun _ h => nomatch h⟩
  | some name =>
    dsimp only
    cases hfile : M.writeFile name with
    | ok fwrite => exact ⟨hm, fun _ h => nomatch h⟩
    | error message =>
      refine ⟨hm, fun code h => ?_⟩
      cases h
      exact ⟨rfl, name, message, hname, hfile⟩

theorem triple_prepare (L : Lifecycle U I) (fuel : ℕ) (keyIndex : ℤ) :
    Triple (KeyIs false (I .down)) (prepare U M fuel keyIndex)
      (fun files m => KeyIs true (I .opened) m ∧
        ∀ code, files.2 = .exit code → code = 1 ∧ Unwritable M m.session.args)
      (Held I) (InPhase I) := by
  refine .bind (.bind (triple_openKey L keyIndex) fun st => triple_transfers
    (.bind (sim_runFrame.parseArguments M st fuel (sim_console _).attempt) fun _ => .pure _))
      fun st => ?_
  refine .bind (triple_transfers (sim_runFrame.applyOathId M st fun _ =>
      (sim_onSession (sim_setOathId L.hostSim _ _)).attempt)) fun _ =>
    .bind (triple_transfers (sim_runFrame.applyAccessCode M)) fun _ =>
      .bind (triple_transfers (sim_runFrame.applyNewAccessCode M)) fun _ =>
        .bind (triple_transfers (sim_runFrame.printSerial
            (sim_onKey (L.hostSim.ykGetSerial 0 0)).attempt st)) fun _ =>
          .bind (triple_transfers (sim_runFrame.printf _)) fun _ =>
            .bind (triple_transfers (sim_runFrame.openInput M)) fun inf =>
              .bind (triple_openOutput M) fun outf => .pure fun _ h => h

theorem triple_personalize (L : Lifecycle U I) (fuel : ℕ) (keyIndex : ℤ) :
    Triple (KeyIs false (I .down)) (personalize U M fuel keyIndex)
      (fun code m => KeyIs true (I .opened) m ∧
        ∀ c, code = some c → c = 1 ∧ Unwritable M m.session.args)
      (Held I) (InPhase I) := by
  refine .bind (triple_prepare M L fuel keyIndex) ?_
  have hend : Triple (KeyIs true (I .opened)) (do setExitCode 0; pure none)
      (fun code m => KeyIs true (I .opened) m ∧
        ∀ c, code = some c → c = 1 ∧ Unwritable M m.session.args) (Held I) (InPhase I) :=
    .bind (triple_transfers (sim_console _)) fun _ => .pure fun _ h => ⟨h, fun _ h => nomatch h⟩
  rintro ⟨inf, outf⟩
  cases outf with
  | exit code => exact .pure fun _ h => ⟨h.1, fun c hc => h.2 c (by cases hc; rfl)⟩
  | file fwrite =>
    exact .bind (fun m h => triple_transfers (sim_runFrame.importFile M inf) m h.1) fun _ =>
      .bind (triple_transfers (sim_runFrame.exportFile M fwrite)) fun _ => hend
  | none =>
    exact .bind (fun m h => triple_transfers (sim_runFrame.importFile M inf) m h.1) fun _ =>
      .bind (triple_transfers (sim_runFrame.commit M (sim_program L.hostSim)
        fun _ => sim_console _)) fun _ => hend

/-! ## The end -/

def DevIs (P : σ → Prop) (m : MainState σ) : Prop := P m.session.world.dev

/-- A call of the end never keeps the program from returning. -/
theorem triple_orReport {f : σ → Except (Option YkErr) Unit × σ} (h : Leads f P E E) :
    Triple (DevIs P) (orReport f) (fun _ => DevIs E) (fun _ => False) fun _ => False := by
  have hcall : Triple (DevIs P) (onSession (onKey (busCall f))) (fun _ => DevIs E) (DevIs E)
      fun _ => False := by
    intro m hm
    have hkey := triple_onKey (k := m.keyOpen) (Q := fun _ => E) (E := E) (F := fun _ => False)
      (triple_busCall h fun _ => False)
    exact hkey.conseq (Q := fun _ => DevIs E) (fun _ h => h) (fun _ _ h => h.2) (fun _ h => h.2)
      (fun _ h => h.2) m ⟨rfl, hm⟩
  refine .bind hcall.attempt_same fun r => ?_
  cases r with
  | some _ => exact .pure fun _ h => h
  | none => exact fun _ h => h

theorem triple_leave (L : Lifecycle U I) (error : Bool) :
    Triple (Held I) (leave U error) (fun _ => DevIs (I .down)) (fun _ => False) fun _ => False := by
  have hreport : Triple (Held I) (reportIf error) (fun _ => Held I) (fun _ => False)
      fun _ => False := .ite (fun _ _ h => h) fun _ => .pure fun _ h => h
  have hstop := triple_orReport L.stop
  refine .bind hreport fun _ => .bind (Q := fun _ => DevIs fun d => I .down d ∨ I .up d) ?_
    fun _ => .bind hstop fun _ => .get_bind fun _ => .pure fun _ h => h.2
  refine .get_bind fun m => .ite (fun hopen t ht => ?_) fun hclosed => .pure ?_
  · rcases ht.2 with h | h
    · exact (triple_orReport L.closeDevice).conseq (fun _ h => h) (fun _ _ h => Or.inr h)
        (fun _ h => h) (fun _ h => h) t h.2
    · rw [← ht.1, h.1] at hopen
      cases hopen
  · rintro t ⟨rfl, h | h⟩
    · exact absurd h.1 hclosed
    · exact h.2

/-- Every run stays in some phase, and one that returns has let the key go, unless it left by the
`exit` behind an output that cannot be opened. -/
theorem triple_ykpersonalize (L : Lifecycle U I) (fuel : ℕ) :
    Triple (KeyIs false (I .down)) (ykpersonalize U M fuel)
      (fun code m => DevIs (I .down) m ∨
        (DevIs (I .opened) m ∧ code = 1 ∧ Unwritable M m.session.args))
      (fun _ => False) (InPhase I) := by
  refine .get_bind fun m => ?_
  cases prescan M fuel m.session.args.getopt 0 with
  | none => exact fun t ht => ⟨_, ht.2.2⟩
  | some p =>
    cases p with
    | leave code output => exact fun t ht => .inl ht.2.2
    | goOn keyIndex =>
      refine .bind (fun t ht => (triple_personalize M L fuel keyIndex).attempt t ht.2) fun r => ?_
      have hleave := fun error => (triple_leave L error).conseq (P := Held I)
        (Q := fun code m => DevIs (I .down) m ∨
          (DevIs (I .opened) m ∧ code = 1 ∧ Unwritable M m.session.args))
        (F := InPhase I) (fun _ h => h) (fun _ _ h => .inl h) (fun _ h => h) fun _ h => h.elim
      match r with
      | none => exact hleave true
      | some none => exact fun t ht => hleave false t (.inl ht.1)
      | some (some code) =>
        exact .pure fun t ht => .inr ⟨ht.1.2, ht.2 code rfl⟩

end Main

end YkPers
