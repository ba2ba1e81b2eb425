import YkPers.Proofs.SameRun
import YkPers.Proofs.ToolFrame

/-!
# `ykchalresp` and `ykinfo` over two backends

As for the program: over backends whose calls answer alike, the runs of the two smaller programs
cannot be told apart (`Ykchalresp.sim_ykchalresp`, `Ykinfo.sim_ykinfo`). Between the opening of
the key and the label `err` both make transfers only; `ykinfo` also asks for the ids of the key.
-/

namespace YkPers

open Proc (Sim)

variable {σ σ' α : Type}

namespace Ykchalresp

structure SameState (D : σ → σ' → Prop) (K : Bool → Prop) (s : State σ) (s' : State σ') :
    Prop where
  world : SameWorld D s.world s'.world
  keyOpen : s.keyOpen = s'.keyOpen
  known : K s.keyOpen
  stdout : s.stdout = s'.stdout
  stderr : s.stderr = s'.stderr
  exchanges : s.exchanges = s'.exchanges

section Steps

variable {D : σ → σ' → Prop} {K : Bool → Prop}

theorem sim_onKey {x : Yk σ α} {y : Yk σ' α} (hx : Sim (SameWorld D) x y) :
    Sim (SameState D K) (onKey x) (onKey y) :=
  hx.zoom (fun _ _ h => h.world) fun _ _ _ _ h k => { h with world := k }

theorem sim_printf (text : String) : Sim (SameState D K) (printf text) (printf text) :=
  .modify fun _ _ h => { h with stdout := congrArg (· ++ [text]) h.stdout }

theorem sim_writeErr (messages : List Message) : Sim (SameState D K)
    (Proc.modify fun s : State σ => { s with stderr := s.stderr ++ messages })
    (Proc.modify fun s : State σ' => { s with stderr := s.stderr ++ messages }) :=
  .modify fun _ _ h => { h with stderr := congrArg (· ++ messages) h.stderr }

theorem sim_fprintf (text : String) : Sim (SameState D K) (fprintf text) (fprintf text) :=
  sim_writeErr [.text text]

theorem sim_leaveFrame :
    LeaveFrame (fun ⦃α⦄ (x : Proc (State σ) α) y => Sim (SameState D K) x y) where
  pure a := .pure a
  bind hx hf := .bind hx hf
  report := by
    refine .modify fun s s' h => ?_
    rw [h.world.ykErrno]
    cases s'.world.ykErrno with
    | none => exact h
    | some e => exact { h with stderr := congrArg (· ++ [Message.ykError e]) h.stderr }
  keyOpen hf := .get_bind fun s s' hs => by
    rw [hs.keyOpen]
    exact hf s'.keyOpen

theorem sim_onlyIf {c : Bool} {x : Proc (State σ) Unit} {y : Proc (State σ') Unit}
    (hx : Sim (SameState D K) x y) : Sim (SameState D K) (onlyIf c x) (onlyIf c y) :=
  sim_leaveFrame.onlyIf hx

theorem sim_setOpen : Sim (SameState D fun _ => True)
    (Proc.modify fun s : State σ => { s with keyOpen := true })
    (Proc.modify fun s : State σ' => { s with keyOpen := true }) :=
  .modify fun _ _ h => { h with keyOpen := rfl, known := trivial }

end Steps

section Transfers

variable {D : σ → σ' → Prop} {K : Bool → Prop} {U : Usb σ} {U' : Usb σ'} (E : Env)
  (h : HostSim D U.toHost U'.toHost)
include h

theorem sim_checkFirmware (verbose : Bool) :
    Sim (SameState D K) (checkFirmware U verbose) (checkFirmware U' verbose) :=
  .bind (sim_onKey h.ykGetStatus) fun _ => .bind (sim_onlyIf (sim_printf _)) fun _ =>
    .ite (.bind (sim_fprintf _) fun _ => .fail) (.pure _)

theorem sim_exchange (ykCmd : UInt8) (mayBlock : Bool) (c : Challenge) :
    Sim (SameState D K) (exchange U ykCmd mayBlock c) (exchange U' ykCmd mayBlock c) := by
  refine .bind (sim_onKey (h.ykChallengeResponse _ _ _ _ _)).attempt fun r => .bind ?_ fun _ => ?_
  · exact .modify fun _ _ hs => { hs with exchanges := congrArg (· ++ [_]) hs.exchanges }
  · cases r with
    | some response => exact .pure _
    | none => exact .fail

theorem sim_challengeResponse (v : Vars) (c : Challenge) :
    Sim (SameState D K) (challengeResponse U E v c) (challengeResponse U' E v c) := by
  refine .bind (sim_onlyIf (sim_fprintf _)) fun _ => ?_
  cases slotCommand v.slot v.hmac with
  | none => exact .fail
  | some ykCmd => exact .bind (sim_exchange h _ _ _) fun _ => sim_printf _

/-- What stands between the opening of the key and the label `err`. -/
theorem sim_transfers (v : Vars) (c : Challenge) : Sim (SameState D K)
    (do checkFirmware U v.verbose; challengeResponse U E v c)
    (do checkFirmware U' v.verbose; challengeResponse U' E v c) :=
  .bind (sim_checkFirmware h _) fun _ => sim_challengeResponse E h v c

end Transfers

section Run

variable {D : σ → σ' → Prop} {U : Usb σ} {U' : Usb σ'} (E : Env) (h : UsbSim D U U')
include h

theorem sim_leave (error : Bool) :
    Sim (SameState D fun _ => True) (leave U error) (leave U' error) :=
  sim_leaveFrame.leave (sim_onKey (sim_busCall h.closeDevice)).attempt
    (sim_onKey (sim_busCall h.stop)).attempt error

theorem sim_ykchalresp (argv : List (List Char)) :
    Sim (SameState D fun _ => True) (ykchalresp U E argv) (ykchalresp U' E argv) := by
  unfold ykchalresp
  rcases parseArgs E argv with messages | ⟨v, c⟩
  · exact .bind (sim_writeErr messages) fun _ => .pure _
  · have hsession := (sim_onKey (sim_busCall h.start)).bind fun _ =>
      (sim_onKey (h.ykOpenKey v.keyIndex)).bind fun _ => sim_setOpen.bind fun _ =>
        sim_transfers E h.host v c
    exact hsession.attempt.bind fun r => sim_leave h r.isNone

end Run

end Ykchalresp

namespace Ykinfo

open Ykchalresp (State SameState)

structure UsbIdsSim (D : σ → σ' → Prop) (U : UsbIds σ) (U' : UsbIds σ') : Prop where
  usb : UsbSim D U.toUsb U'.toUsb
  getVidPid : Answers D U.ykusbGetVidPid U'.ykusbGetVidPid

theorem sim_printFrame {D : σ → σ' → Prop} {K : Bool → Prop} :
    PrintFrame (fun ⦃α⦄ (x : Proc (State σ) α) y => Sim (SameState D K) x y) where
  toBaseFrame := Ykchalresp.sim_leaveFrame.toBaseFrame
  fault := .fault
  printf text := Ykchalresp.sim_printf text

section Run

variable {D : σ → σ' → Prop} {K : Bool → Prop} {U : UsbIds σ} {U' : UsbIds σ'} (E : Env)

theorem sim_ykGetKeyVidPid (h : Answers D U.ykusbGetVidPid U'.ykusbGetVidPid) :
    Sim (SameWorld D) (ykGetKeyVidPid U) (ykGetKeyVidPid U') := by
  intro w w' hw
  obtain ⟨h1, h2⟩ := h _ _ hw.dev
  unfold ykGetKeyVidPid
  rcases hr : U.ykusbGetVidPid w.dev with ⟨e | ids, d⟩ <;>
    rcases hr' : U'.ykusbGetVidPid w'.dev with ⟨e' | ids', d'⟩ <;> rw [hr, hr'] at h1 h2
  · cases h1
    exact ⟨rfl, h2, congrArg (e <|> ·) hw.ykErrno, hw.trace⟩
  · cases h1
  · cases h1
  · cases h1
    exact ⟨rfl, h2, hw.ykErrno, hw.trace⟩

/-- What stands between the opening of the key and the label `err`. -/
theorem sim_transfers (h : HostSim D U.toHost U'.toHost)
    (hids : Answers D U.ykusbGetVidPid U'.ykusbGetVidPid) (v : Vars) : Sim (SameState D K)
      (do showSerial U E v; showStatus U v; showIds U v; showCapabilities U v)
      (do showSerial U' E v; showStatus U' v; showIds U' v; showCapabilities U' v) :=
  .bind (sim_printFrame.showSerial v E (Ykchalresp.sim_onKey (h.ykGetSerial 1 0))) fun _ =>
    .bind (sim_printFrame.showStatus v (Ykchalresp.sim_onKey h.ykGetStatus)) fun _ =>
      .bind (sim_printFrame.showIds v (Ykchalresp.sim_onKey (sim_ykGetKeyVidPid hids))) fun _ =>
        sim_printFrame.showCapabilities v (Ykchalresp.sim_onKey (h.ykGetCapabilities _ _ _ _))

theorem sim_ykinfo (h : UsbIdsSim D U U') (argv : List (List Char)) :
    Sim (SameState D fun _ => True) (ykinfo U E argv) (ykinfo U' E argv) := by
  unfold ykinfo
  rcases parseArgs E argv with messages | v
  · exact .bind (Ykchalresp.sim_writeErr messages) fun _ => .pure _
  · have hopen : Sim (SameWorld D) (openKey U v.keyIndex) (openKey U' v.keyIndex) :=
      .bind (sim_busCall h.usb.start) fun _ => h.usb.ykOpenKey v.keyIndex
    have hsession := (Ykchalresp.sim_onKey hopen).bind fun _ => Ykchalresp.sim_setOpen.bind fun _ =>
      sim_transfers E h.usb.host h.getVidPid v
    exact hsession.attempt.bind fun r => Ykchalresp.sim_leave h.usb r.isNone

end Run

end Ykinfo

end YkPers
