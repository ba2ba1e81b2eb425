import YkPers.Proofs.Lockstep
import YkPers.Proofs.MainFrame

/-!
# The program over two backends

Over two backends whose calls answer alike from related device states (`UsbSim`), a run of the
program ends in the same way, with the same variables, output and log (`sim_ykpersonalize`). What
stands between `openKey` and `leave` makes transfers only, so it needs the two hosts alone
(`HostSim`), and it never touches `keyOpen`, on which `K` says something.
-/

namespace YkPers

open Proc (Sim)

variable {σ σ' α β : Type}

structure UsbSim (D : σ → σ' → Prop) (U : Usb σ) (U' : Usb σ') : Prop where
  host : HostSim D U.toHost U'.toHost
  start : Answers D U.ykusbStart U'.ykusbStart
  stop : Answers D U.ykusbStop U'.ykusbStop
  openDevice : ∀ vendorId index,
    Answers D (U.ykusbOpenDevice vendorId index) (U'.ykusbOpenDevice vendorId index)
  closeDevice : Answers D U.ykusbCloseDevice U'.ykusbCloseDevice

structure SameSession (D : σ → σ' → Prop) (s : Session σ) (s' : Session σ') : Prop where
  args : s.args = s'.args
  world : SameWorld D s.world s'.world

/-- The devices are related by `D`, `keyOpen` satisfies `K`, and all else is the same. -/
structure SameRun (D : σ → σ' → Prop) (K : Bool → Prop) (m : MainState σ) (m' : MainState σ') :
    Prop where
  session : SameSession D m.session m'.session
  keyOpen : m.keyOpen = m'.keyOpen
  known : K m.keyOpen
  data : m.data = m'.data
  accessCode : m.accessCode = m'.accessCode
  stdout : m.stdout = m'.stdout
  acts : m.acts = m'.acts

section Steps

variable {D : σ → σ' → Prop} {K : Bool → Prop} {m : MainState σ} {m' : MainState σ'}

theorem SameRun.args (h : SameRun D K m m') : m.session.args = m'.session.args := h.session.args

theorem SameRun.alike (h : SameRun D K m m') : Alike m m' :=
  ⟨h.args, h.session.world.ykErrno, h.keyOpen, h.data, h.accessCode⟩

theorem sim_onArgs (x : Proc ArgsState α) : Sim (SameSession D) (onArgs x) (onArgs x) :=
  (Sim.refl x).zoom (fun _ _ h => h.args) fun _ _ _ _ h k => ⟨k, h.world⟩

theorem sim_sessionKey {x : Yk σ α} {y : Yk σ' α} (hx : Sim (SameWorld D) x y) :
    Sim (SameSession D) (onKey x) (onKey y) :=
  hx.zoom (fun _ _ h => h.world) fun _ _ _ _ h k => ⟨h.args, k⟩

theorem sim_onSession {x : Proc (Session σ) α} {y : Proc (Session σ') α}
    (hx : Sim (SameSession D) x y) : Sim (SameRun D K) (onSession x) (onSession y) :=
  hx.zoom (fun _ _ h => h.session) fun _ _ _ _ h k => { h with session := k }

theorem sim_console (x : Proc ArgsState α) :
    Sim (SameRun D K) (onSession (onArgs x)) (onSession (onArgs x)) :=
  sim_onSession (sim_onArgs x)

theorem sim_onKey {x : Yk σ α} {y : Yk σ' α} (hx : Sim (SameWorld D) x y) :
    Sim (SameRun D K) (onSession (onKey x)) (onSession (onKey y)) :=
  sim_onSession (sim_sessionKey hx)

theorem sim_onConfig (x : Proc YkpState α) : Sim (SameRun D K) (onConfig x) (onConfig x) :=
  sim_console _

theorem sim_logAct (a : Act) : Sim (SameRun D K) (logAct a) (logAct a) :=
  .modify fun _ _ h => { h with acts := congrArg (· ++ [a]) h.acts }

theorem sim_runFrame : RunFrame fun ⦃α⦄ (x : Proc (MainState σ) α) (y : Proc (MainState σ') α) =>
    Sim (SameRun D K) x y where
  pure := .pure
  fault := .fault
  fail := .fail
  bind := .bind
  get_bind h := .get_bind fun m m' hm => h m m' hm.alike
  errOne := .bind (sim_console _) fun _ => .fail
  printf text := .modify fun _ _ h => { h with stdout := congrArg (· ++ [text]) h.stdout }
  stderr _ := sim_console _
  stdin _ := sim_console _
  data f := .modify fun _ _ h => { h with data := congrArg f h.data }
  accessCode f := .modify fun _ _ h => { h with accessCode := congrArg f h.accessCode }
  looks _ := sim_onConfig _
  config := sim_onConfig
  attemptConfig x := (sim_onConfig x).attempt
  attemptSame _ := (sim_onConfig _).attempt
  step _ _ := sim_logAct _
  answer _ := sim_logAct _

end Steps

section Busses

variable {D : σ → σ' → Prop}

theorem sim_busCall {f : σ → Except (Option YkErr) Unit × σ}
    {g : σ' → Except (Option YkErr) Unit × σ'} (hf : Answers D f g) :
    Sim (SameWorld D) (busCall f) (busCall g) := by
  intro w w' hw
  obtain ⟨h1, h2⟩ := hf _ _ hw.dev
  unfold busCall
  rcases hr : f w.dev with ⟨e | u, d⟩ <;> rcases hr' : g w'.dev with ⟨e' | u', d'⟩ <;>
    rw [hr, hr'] at h1 h2
  · cases h1
    exact ⟨rfl, h2, congrArg (e <|> ·) hw.ykErrno, hw.trace⟩
  · cases h1
  · cases h1
  · exact ⟨rfl, h2, hw.ykErrno, hw.trace⟩

theorem sim_putErrno (e : Option YkErr) : Sim (SameWorld D)
    (Proc.modify fun w : World σ => { w with ykErrno := e })
    (Proc.modify fun w : World σ' => { w with ykErrno := e }) :=
  .modify fun _ _ h => h.setErrno e

theorem UsbSim.ykOpenKey {U : Usb σ} {U' : Usb σ'} (h : UsbSim D U U') (index : ℤ) :
    Sim (SameWorld D) (ykOpenKey U index) (ykOpenKey U' index) := by
  refine .bind (sim_busCall (h.openDevice _ _)).attempt fun found => ?_
  refine .ite (.bind (.pure found) fun found => ?_) (.bind (sim_putErrno none) fun _ =>
    .bind (sim_busCall (h.openDevice _ _)).attempt fun found => ?_)
  all_goals
    refine .ite .fail (.get_bind fun w w' hw => ?_)
    rw [hw.ykErrno]
    refine .bind_option h.host.ykGetStatus.attempt (fun _ => sim_putErrno _) ?_
    refine .get_bind fun u u' hu => ?_
    rw [hu.ykErrno]
    exact .bind (sim_busCall h.closeDevice).attempt fun _ => .bind (sim_putErrno _) fun _ => .fail

end Busses

/-! ## Parts that make transfers -/

section Transfers

variable {D : σ → σ' → Prop} {K : Bool → Prop} {U : Usb σ} {U' : Usb σ'} (M : MainEnv)
  (h : HostSim D U.toHost U'.toHost)
include h

theorem sim_setOathId (E : ArgsEnv) (opt : List Char) : Sim (SameSession D)
    (setOathId E U.toHost opt) (setOathId E U'.toHost opt) := by
  have htext : ∀ {α} (msg : String), Sim (SameSession D)
      (failWithText msg : Proc (Session σ) α) (failWithText msg) := fun msg =>
    .bind (sim_onArgs _) fun _ => .fail
  refine .get_bind fun s s' hs => ?_
  rw [hs.args]
  refine .ite (.bind (sim_onArgs _) fun _ => .bind (sim_onArgs _) fun _ =>
    .ite (.bind_option (sim_onArgs _).attempt (fun _ => .pure _) (htext _))
      (.ite (htext _) ?_)) (htext _)
  refine .bind_option (sim_sessionKey (h.ykGetSerial 0 0)).attempt (fun serial => ?_) (htext _)
  dsimp only
  cases formatOathId 12 yubicoOathVendorIdHex yubicoHotpEventTokenType serial with
  | none => exact htext _
  | some oathId => exact .bind_option (sim_onArgs _).attempt (fun _ => .pure _) (htext _)

theorem sim_run (call : Programming) :
    Sim (SameWorld D) (call.run U.toHost) (call.run U'.toHost) := by
  cases call with
  | command cfg cmd accCode => exact .bind (h.ykWriteCommand cfg cmd accCode) fun _ => .pure _
  | ndef record confnum => exact h.ykWriteNdef2 record confnum
  | deviceConfig d => exact h.ykWriteDeviceConfig d
  | scanMap scanCodes => exact h.ykWrite _ _ _
  | deviceInfo info len => exact h.ykWrite _ _ _

theorem sim_program (call : Programming) (failure : String) :
    Sim (SameRun D K) (program U call failure) (program U' call failure) :=
  sim_runFrame.program (sim_logAct _) (sim_onKey (sim_run h call)).attempt failure

end Transfers

/-! ## The whole run -/

section Run

variable {D : σ → σ' → Prop} {U : Usb σ} {U' : Usb σ'} (M : MainEnv) (h : UsbSim D U U')
include h

theorem sim_openKey (keyIndex : ℤ) :
    Sim (SameRun D fun _ => True) (openKey U keyIndex) (openKey U' keyIndex) :=
  sim_runFrame.openKey (sim_onKey (sim_busCall h.start)).attempt
    (fun _ => (sim_onKey (h.ykOpenKey _)).attempt)
    (.modify fun _ _ hm => { hm with keyOpen := rfl, known := trivial })
    (sim_onKey h.host.ykGetStatus).attempt keyIndex

theorem sim_personalize (fuel : ℕ) (keyIndex : ℤ) : Sim (SameRun D fun _ => True)
    (personalize U M fuel keyIndex) (personalize U' M fuel keyIndex) := by
  rw [personalize_eq, personalize_eq]
  refine .bind ?_ (sim_runFrame.withFiles M (sim_program h.host) fun _ => sim_console _)
  exact sim_runFrame.prepare M (sim_openKey h keyIndex) (fun _ => (sim_console _).attempt)
    (fun _ _ => (sim_onSession (sim_setOathId h.host _ _)).attempt)
    (sim_onKey (h.host.ykGetSerial 0 0)).attempt

theorem sim_leave (error : Bool) :
    Sim (SameRun D fun _ => True) (leave U error) (leave U' error) :=
  sim_runFrame.leave (fun _ _ => sim_logAct _) (sim_console _)
    (sim_onKey (sim_busCall h.closeDevice)).attempt (sim_onKey (sim_busCall h.stop)).attempt error

theorem sim_ykpersonalize (fuel : ℕ) :
    Sim (SameRun D fun _ => True) (ykpersonalize U M fuel) (ykpersonalize U' M fuel) := by
  refine .get_bind fun m m' hm => ?_
  rw [hm.args]
  rcases prescan M fuel m'.session.args.getopt 0 with _ | keyIndex | ⟨code, output⟩
  · exact .diverge
  · refine .bind (sim_personalize M h fuel keyIndex).attempt fun r => ?_
    match r with
    | none => exact sim_leave h true
    | some none => exact sim_leave h false
    | some (some code) => exact .pure _
  · exact .bind (sim_console _) fun _ => .pure _

end Run

end YkPers
