import YkPers.Proofs.Requests
import YkPers.Proofs.ToolFrame

/-!
# The smaller programs only ask

Whatever the key does, a run of `ykchalresp` makes at most the one request of its challenge, and a
run of `ykinfo` at most one for the serial number and one for the capabilities. Where a run returns
0, it has made the requests of its command line, and no others.
-/

namespace YkPers

open Proc (Alone Moves attempt)
open scoped List

variable {σ α : Type}

namespace Ykchalresp

section Steps

variable (U : Usb σ)

theorem idle_onKey {x : Yk σ α} (hx : Moves (Idle id) x) : Moves (Idle State.world) (onKey x) :=
  idle_zoom hx fun _ _ => rfl

theorem asks_onKey {x : Yk σ α} {gs : List (List UInt8)} (hx : Asks id x gs) :
    Asks State.world (onKey x) gs := hx.zoom fun _ _ => rfl

theorem idle_printf (text : String) :
    Moves (Idle State.world) (printf text : Proc (State σ) Unit) := idle_of_trace fun _ => rfl

theorem idle_fprintf (text : String) :
    Moves (Idle State.world) (fprintf text : Proc (State σ) Unit) := idle_of_trace fun _ => rfl

theorem idle_onlyIf (c : Bool) {x : Proc (State σ) Unit} (hx : Moves (Idle State.world) x) :
    Moves (Idle State.world) (onlyIf c x) := .ite hx (idle_pure _)

theorem idle_checkFirmware (verbose : Bool) :
    Moves (Idle State.world) (checkFirmware U verbose) :=
  idle_bind (idle_onKey (idle_ykGetStatus U.toHost)) fun _ =>
    idle_bind (idle_onlyIf _ (idle_printf _)) fun _ =>
      .ite (idle_bind (idle_fprintf _) fun _ => .fail Idle.refl) (idle_pure _)

theorem idle_leaveFrame : LeaveFrame (Alone (Moves (Idle (State.world (σ := σ))))) :=
  .of_moves Idle.refl (fun _ _ _ => Idle.trans) fun _ _ => .of_trace rfl

theorem idle_leave (error : Bool) : Moves (Idle State.world) (leave U error) :=
  idle_leaveFrame.leave (V := U) (idle_onKey (idle_busCall _)).attempt
    (idle_onKey (idle_busCall _)).attempt error

/-! ## The exit code -/

theorem orReport_code {f : σ → Except (Option YkErr) Unit × σ} {exitCode code : ℕ} {s s' : State σ}
    (h : orReport f exitCode s = (.ok code, s')) : code = exitCode ∨ code = 2 := by
  obtain ⟨r, t, -, h⟩ := Proc.bind_eq_ok.1 h
  cases r with
  | some _ => exact .inl (Ret.ok.inj (Prod.mk.inj h).1).symm
  | none =>
    obtain ⟨_, _, -, h⟩ := Proc.bind_eq_ok.1 h
    exact .inr (Ret.ok.inj (Prod.mk.inj h).1).symm

/-- A failure of the session is never forgotten. -/
theorem leave_true {code : ℕ} {s s' : State σ} (h : leave U true s = (.ok code, s')) :
    code ≠ 0 := by
  obtain ⟨_, t, -, h⟩ := Proc.bind_eq_ok.1 h
  obtain ⟨exitCode, u, hclose, h⟩ := Proc.bind_eq_ok.1 h
  have hcode : exitCode = 1 ∨ exitCode = 2 := by
    rw [if_pos rfl, closeKey, Proc.get_bind_run] at hclose
    split_ifs at hclose
    · exact orReport_code hclose
    · exact .inl (Ret.ok.inj (Prod.mk.inj hclose).1).symm
  have := orReport_code h
  omega

/-- Behind a session that asks for `gs`, a return of 0 says that it has. -/
theorem main_requests {x : Proc (State σ) Unit} {gs : List (List UInt8)}
    (hx : Asks State.world x gs) (dev : σ) :
    let run := (do let r ← attempt x; leave U r.isNone : Proc (State σ) ℕ) (.start dev)
    ∀ buf rs, Arrives (outgoing run.2.world.trace) rs →
      requests buf rs <+ gs ∧ (run.1 = .ok 0 → requests buf rs = gs) := by
  intro run buf rs hrs
  have hlog : ∀ {L : List (List UInt8) → Prop}, HasAsked State.world L (.start dev) run.2 →
      L (requests buf rs) := by
    rintro L ⟨t, ht, h⟩
    obtain rfl : run.2.world.trace = t := ht
    exact h buf rs hrs
  obtain ⟨hany, hok⟩ := hx.attempt_then (fun r => idle_leave U r.isNone) (.start dev)
  refine ⟨hlog hany, fun hzero => ?_⟩
  obtain h | ⟨t, hleave⟩ := hok 0 _ (Proc.run_eq hzero)
  · exact hlog h
  · exact absurd rfl (leave_true U hleave)

end Steps

/-! ## `ykchalresp` -/

section Challenge

variable (U : Usb σ) (E : Env)

def challengeRequest (crc16 : List UInt8 → UInt16) (ykCmd : UInt8) (c : Challenge) : List UInt8 :=
  wireFrame crc16 ykCmd (c.mem.take (UInt32.ofNat c.len).toNat)

/-- The request of a command line. -/
def wanted (crc16 : List UInt8 → UInt16) (argv : List (List Char)) : List (List UInt8) :=
  match parseArgs E argv with
  | .error _ => []
  | .ok (v, c) => (slotCommand v.slot v.hmac).toList.map fun ykCmd => challengeRequest crc16 ykCmd c

theorem asks_exchange (ykCmd : UInt8) (mayBlock : Bool) (c : Challenge) :
    Asks State.world (exchange U ykCmd mayBlock c) [challengeRequest U.yubikeyCrc16 ykCmd c] := by
  have hcall := asks_onKey (ykChallengeResponse_asks U.toHost ykCmd mayBlock (UInt32.ofNat c.len)
    c.mem (UInt32.ofNat sha1MaxBlockSize))
  refine hcall.attempt_bind (fun r => ?_) fun t a s' h => ?_
  · refine idle_bind (idle_of_trace fun _ => rfl) fun _ => ?_
    cases r with
    | some response => exact idle_pure _
    | none => exact .fail Idle.refl
  · obtain ⟨_, _, -, h⟩ := Proc.bind_eq_ok.1 h
    cases h

theorem asks_session (v : Vars) (c : Challenge) : Asks State.world (session U E v c)
    ((slotCommand v.slot v.hmac).toList.map fun ykCmd =>
      challengeRequest U.yubikeyCrc16 ykCmd c) := by
  refine .idle_then (idle_onKey (idle_busCall _)) fun _ =>
    .idle_then (idle_onKey (idle_ykOpenKey U _)) fun _ =>
      .idle_then (idle_of_trace fun _ => rfl) fun _ =>
        .idle_then (idle_checkFirmware U _) fun _ =>
          .idle_then (idle_onlyIf _ (idle_fprintf _)) fun _ => ?_
  cases slotCommand v.slot v.hmac with
  | none => exact .of_idle (.fail Idle.refl)
  | some ykCmd => exact (asks_exchange U ykCmd _ c).then_idle fun _ => idle_printf _

/-- Whatever the key does, it is asked for nothing but the challenge of the command line, and where
the program returns 0, for that. -/
theorem ykchalresp_requests (argv : List (List Char)) (dev : σ) :
    let run := ykchalresp U E argv (.start dev)
    ∀ buf rs, Arrives (outgoing run.2.world.trace) rs →
      requests buf rs <+ wanted E U.yubikeyCrc16 argv ∧
        (run.1 = .ok 0 → requests buf rs = wanted E U.yubikeyCrc16 argv) := by
  unfold ykchalresp wanted
  rcases parseArgs E argv with messages | ⟨v, c⟩
  · intro run buf rs hrs
    rw [Arrives.eq_nil hrs]
    exact ⟨List.Sublist.refl _, fun _ => rfl⟩
  · exact main_requests U (asks_session U E v c) dev

end Challenge

end Ykchalresp

namespace Ykinfo

open Ykchalresp (State onlyIf)

variable (U : UsbIds σ) (E : Env) (v : Vars)

/-- The requests of a command line. -/
def wanted (crc16 : List UInt8 → UInt16) (argv : List (List Char)) : List (List UInt8) :=
  match parseArgs E argv with
  | .error _ => []
  | .ok v =>
    (if v.serialDec || v.serialModhex || v.serialHex then [serialRequest crc16] else [])
      ++ if v.capa then [capabilitiesRequest crc16] else []

theorem idle_printFrame : PrintFrame (Alone (Moves (Idle (State.world (σ := σ))))) :=
  .of_moves Idle.refl (fun _ _ _ => Idle.trans) fun _ _ => .of_trace rfl

theorem idle_ykGetKeyVidPid : Moves (Idle id) (ykGetKeyVidPid U) := by
  refine idle_of_trace fun w => ?_
  unfold ykGetKeyVidPid
  split <;> rfl

theorem asks_showSerial : Asks State.world (showSerial U E v)
    (if v.serialDec || v.serialModhex || v.serialHex then [serialRequest U.yubikeyCrc16]
      else []) := by
  unfold showSerial onlyIf
  split_ifs
  · exact (Ykchalresp.asks_onKey (ykGetSerial_asks U.toHost 1 0)).then_idle fun serial =>
      idle_printFrame.printSerial E v serial
  · exact .of_idle (idle_pure _)

theorem idle_showStatus : Moves (Idle State.world) (showStatus U v) :=
  idle_printFrame.showStatus (V := U) v (Ykchalresp.idle_onKey (idle_ykGetStatus U.toHost))

theorem idle_showIds : Moves (Idle State.world) (showIds U v) :=
  idle_printFrame.showIds (V := U) v (Ykchalresp.idle_onKey (idle_ykGetKeyVidPid U))

theorem asks_showCapabilities : Asks State.world (showCapabilities U v)
    (if v.capa then [capabilitiesRequest U.yubikeyCrc16] else []) := by
  unfold showCapabilities onlyIf
  split_ifs
  · exact (Ykchalresp.asks_onKey (ykGetCapabilities_asks U.toHost 1 0 _ _)).then_idle fun p =>
      idle_printFrame.printCapabilities v (p.1.take p.2)
  · exact .of_idle (idle_pure _)

theorem asks_session : Asks State.world (session U E v)
    ((if v.serialDec || v.serialModhex || v.serialHex then [serialRequest U.yubikeyCrc16] else [])
      ++ if v.capa then [capabilitiesRequest U.yubikeyCrc16] else []) :=
  .idle_then (Ykchalresp.idle_onKey (idle_bind (idle_busCall _) fun _ =>
      idle_ykOpenKey U.toUsb _)) fun _ =>
    .idle_then (idle_of_trace fun _ => rfl) fun _ => (asks_showSerial U E v).bind fun _ =>
      .idle_then (idle_showStatus U v) fun _ => .idle_then (idle_showIds U v) fun _ =>
        asks_showCapabilities U v

/-- Whatever the key does, it is asked for nothing but what the options want of the serial number
and the capabilities, and where the program returns 0, for all of that. -/
theorem ykinfo_requests (argv : List (List Char)) (dev : σ) :
    let run := ykinfo U E argv (.start dev)
    ∀ buf rs, Arrives (outgoing run.2.world.trace) rs →
      requests buf rs <+ wanted E U.yubikeyCrc16 argv ∧
        (run.1 = .ok 0 → requests buf rs = wanted E U.yubikeyCrc16 argv) := by
  unfold ykinfo wanted
  rcases parseArgs E argv with messages | v
  · intro run buf rs hrs
    rw [Arrives.eq_nil hrs]
    exact ⟨List.Sublist.refl _, fun _ => rfl⟩
  · exact Ykchalresp.main_requests U.toUsb (asks_session U E v) dev

end Ykinfo

end YkPers
