import YkPers.Lib.Simulation
import YkPers.Ykcore

/-!
# The core functions over two hosts

Two hosts whose transfers answer alike from related device states (`HostSim`) cannot be told apart
by the functions of `ykcore.c`: each returns the same over both, with the same `yk_errno` and the
same log, and leaves related devices.
-/

namespace YkPers

open Proc (Sim)

variable {σ σ' α : Type}

/-- What a call on two devices returns is the same, and the devices are related by `D` again. -/
def Answers (D : σ → σ' → Prop) (f : σ → α × σ) (g : σ' → α × σ') : Prop :=
  ∀ d d', D d d' → (f d).1 = (g d').1 ∧ D (f d).2 (g d').2

structure HostSim (D : σ → σ' → Prop) (H : Host σ) (H' : Host σ') : Prop where
  endian : H.endian = H'.endian
  yubikeyCrc16 : H.yubikeyCrc16 = H'.yubikeyCrc16
  read : Answers D H.ykusbRead H'.ykusbRead
  write : ∀ r, Answers D (H.ykusbWrite r) (H'.ykusbWrite r)

structure SameWorld (D : σ → σ' → Prop) (w : World σ) (w' : World σ') : Prop where
  dev : D w.dev w'.dev
  ykErrno : w.ykErrno = w'.ykErrno
  trace : w.trace = w'.trace

section Steps

variable {D : σ → σ' → Prop}

theorem SameWorld.setErrno {w : World σ} {w' : World σ'} (h : SameWorld D w w')
    (e : Option YkErr) : SameWorld D { w with ykErrno := e } { w' with ykErrno := e } :=
  ⟨h.dev, rfl, h.trace⟩

theorem sim_failWith (e : YkErr) :
    Sim (SameWorld D) (failWith e : Yk σ α) (failWith e) := fun _ _ h => ⟨rfl, h.setErrno _⟩

theorem sim_setErrno (e : YkErr) : Sim (SameWorld D) (setErrno e) (setErrno e) :=
  fun _ _ h => ⟨rfl, h.setErrno _⟩

theorem sim_sleep (ms : ℕ) : Sim (SameWorld D) (sleep ms) (sleep ms) :=
  fun _ _ h => ⟨rfl, h.dev, h.ykErrno, congrArg (· ++ [Event.sleep ms]) h.trace⟩

theorem sim_memcpy {R : σ → σ' → Prop} (buf : List UInt8) (off : ℕ) (xs : List UInt8) :
    Sim R (memcpy buf off xs) (memcpy buf off xs) := .ite (.pure _) .fault

theorem sim_loadBytes {R : σ → σ' → Prop} (buf : List UInt8) (n : ℕ) :
    Sim R (loadBytes buf n) (loadBytes buf n) := .ite (.pure _) .fault

end Steps

namespace HostSim

variable {D : σ → σ' → Prop} {H : Host σ} {H' : Host σ'} (h : HostSim D H H')
include h

theorem sim_read : Sim (SameWorld D) H.read H'.read := by
  intro w w' hw
  obtain ⟨h1, h2⟩ := h.read _ _ hw.dev
  unfold Backend.read
  rcases hr : H.ykusbRead w.dev with ⟨e | r, d⟩ <;>
    rcases hr' : H'.ykusbRead w'.dev with ⟨e' | r', d'⟩ <;> rw [hr, hr'] at h1 h2
  · cases h1
    exact ⟨rfl, h2, congrArg (e <|> ·) hw.ykErrno, congrArg (· ++ [Event.read none]) hw.trace⟩
  · cases h1
  · cases h1
  · cases h1
    exact ⟨rfl, h2, hw.ykErrno, congrArg (· ++ [Event.read (some r)]) hw.trace⟩

theorem sim_write (r : Report) : Sim (SameWorld D) (H.write r) (H'.write r) := by
  intro w w' hw
  obtain ⟨h1, h2⟩ := h.write r _ _ hw.dev
  unfold Backend.write
  rcases hr : H.ykusbWrite r w.dev with ⟨e | u, d⟩ <;>
    rcases hr' : H'.ykusbWrite r w'.dev with ⟨e' | u', d'⟩ <;> rw [hr, hr'] at h1 h2
  · cases h1
    exact ⟨rfl, h2, congrArg (e <|> ·) hw.ykErrno, congrArg (· ++ [Event.write r false]) hw.trace⟩
  · cases h1
  · cases h1
  · exact ⟨rfl, h2, hw.ykErrno, congrArg (· ++ [Event.write r true]) hw.trace⟩

/-! ## Polling and responses -/

theorem ykForceKeyUpdate : Sim (SameWorld D) (ykForceKeyUpdate H) (ykForceKeyUpdate H') :=
  h.sim_write dummyReport

/-- The result of the reset is not looked at. -/
theorem forceKeyUpdate_then {x : Yk σ α} {y : Yk σ' α} (hx : Sim (SameWorld D) x y) :
    Sim (SameWorld D) (do let _ ← Proc.attempt (YkPers.ykForceKeyUpdate H); x)
      (do let _ ← Proc.attempt (YkPers.ykForceKeyUpdate H'); y) :=
  .bind h.ykForceKeyUpdate.attempt fun _ => hx

theorem waitLoop (flags : UInt32) (logicAnd : Bool) (mask : UInt8) :
    ∀ (fuel sleepval sleptTime maxTimeMs : ℕ) (blocking : Bool), Sim (SameWorld D)
      (waitLoop H flags logicAnd mask fuel sleepval sleptTime maxTimeMs blocking)
      (waitLoop H' flags logicAnd mask fuel sleepval sleptTime maxTimeMs blocking) := by
  intro fuel
  induction fuel with
  | zero => exact fun _ _ _ _ => .diverge
  | succ fuel ih =>
    intro sleepval sleptTime maxTimeMs blocking
    refine .ite (.bind (sim_sleep _) fun _ => .bind h.sim_read fun data => ?_) (sim_failWith _)
    refine .ite (.pure _) (.ite (.ite (ih _ _ _ _) ?_) (.ite (sim_failWith _) (ih _ _ _ _)))
    exact h.forceKeyUpdate_then (sim_failWith _)

theorem ykWaitForKeyStatus (slot : UInt8) (flags : UInt32) (maxTimeMs : ℕ) (logicAnd : Bool)
    (mask : UInt8) : Sim (SameWorld D) (ykWaitForKeyStatus H slot flags maxTimeMs logicAnd mask)
      (ykWaitForKeyStatus H' slot flags maxTimeMs logicAnd mask) :=
  h.waitLoop flags logicAnd mask _ _ _ _ _

theorem verifyResponse (expectBytes bytesRead : ℕ) (buf : List UInt8) : Sim (SameWorld D)
    (verifyResponse H expectBytes bytesRead buf) (verifyResponse H' expectBytes bytesRead buf) := by
  refine .ite (.bind (sim_loadBytes _ _) fun bytes => ?_) (.pure _)
  rw [h.yubikeyCrc16]
  exact .ite (sim_failWith _) (.ite (sim_failWith _) (.pure _))

theorem readResponseLoop (bufsize expectBytes : ℕ) :
    ∀ (fuel bytesRead : ℕ) (buf : List UInt8), Sim (SameWorld D)
      (readResponseLoop H bufsize expectBytes fuel bytesRead buf)
      (readResponseLoop H' bufsize expectBytes fuel bytesRead buf) := by
  intro fuel
  induction fuel with
  | zero => exact fun _ _ => .diverge
  | succ fuel ih =>
    intro bytesRead buf
    refine .ite (.bind h.sim_read fun data => ?_) (h.forceKeyUpdate_then (sim_failWith _))
    refine .ite (.ite ?_ ?_) (h.forceKeyUpdate_then .fail)
    · exact .bind (h.verifyResponse _ _ _) fun _ => h.forceKeyUpdate_then (.pure _)
    · exact .bind (sim_memcpy _ _ _) fun buf => ih _ buf

theorem ykReadResponseFromKey (slot : UInt8) (flags bufsize expectBytes : UInt32) :
    Sim (SameWorld D) (ykReadResponseFromKey H slot flags bufsize expectBytes)
      (ykReadResponseFromKey H' slot flags bufsize expectBytes) :=
  .bind (h.ykWaitForKeyStatus _ _ _ _ _) fun _ => .bind (sim_memcpy _ _ _) fun _ =>
    h.readResponseLoop _ _ _ _ _

/-! ## Frames -/

theorem sendParts (slot : UInt8) : ∀ (left seq : ℕ) (ptr : List UInt8),
    Sim (SameWorld D) (sendParts H slot left seq ptr) (sendParts H' slot left seq ptr) := by
  intro left
  induction left with
  | zero => exact fun _ _ => .pure _
  | succ left ih =>
    intro seq ptr
    refine .ite (ih _ _) (.bind (h.ykWaitForKeyStatus _ _ _ _ _) fun _ => ?_)
    exact .bind (h.sim_write _) fun _ => ih _ _

theorem ykFrame (slot : UInt8) (bytes : List UInt8) :
    ykFrame H slot bytes = ykFrame H' slot bytes := by
  unfold YkPers.ykFrame
  rw [h.endian, h.yubikeyCrc16]

theorem ykWriteToKey (slot : UInt8) (buf : List UInt8) (bufcount : Int32) : Sim (SameWorld D)
    (ykWriteToKey H slot buf bufcount) (ykWriteToKey H' slot buf bufcount) := by
  refine .ite (sim_failWith _) (.bind (sim_loadBytes _ _) fun bytes => ?_)
  rw [h.ykFrame, h.endian]
  exact h.sendParts slot _ _ _

/-! ## Status, serial number, capabilities, challenge-response -/

theorem ykGetStatus : Sim (SameWorld D) (ykGetStatus H) (ykGetStatus H') := by
  refine .bind (.ite (sim_failWith _) (.bind h.sim_read fun _ => .pure _)) ?_
  rintro ⟨bytes, statusCount⟩
  rw [h.endian]
  exact .ite (sim_failWith _) (.pure _)

theorem ykGetSerial (slot : UInt8) (flags : UInt32) :
    Sim (SameWorld D) (ykGetSerial H slot flags) (ykGetSerial H' slot flags) :=
  .bind (h.ykWriteToKey _ _ _) fun _ => .bind (h.ykReadResponseFromKey _ _ _ _) fun _ => .pure _

theorem ykGetCapabilities (slot : UInt8) (flags : UInt32) (capabilities : List UInt8)
    (len : UInt32) : Sim (SameWorld D) (ykGetCapabilities H slot flags capabilities len)
      (ykGetCapabilities H' slot flags capabilities len) :=
  .bind (h.ykWriteToKey _ _ _) fun _ => .bind (h.ykReadResponseFromKey _ _ _ _) fun _ =>
    .ite (sim_failWith _) (.pure _)

theorem ykChallengeResponse (ykCmd : UInt8) (mayBlock : Bool) (challengeLen : UInt32)
    (challenge : List UInt8) (responseLen : UInt32) : Sim (SameWorld D)
      (ykChallengeResponse H ykCmd mayBlock challengeLen challenge responseLen)
      (ykChallengeResponse H' ykCmd mayBlock challengeLen challenge responseLen) := by
  unfold YkPers.ykChallengeResponse
  cases chalRespBytes ykCmd with
  | none => exact sim_failWith _
  | some expectBytes =>
    exact .bind (h.ykWriteToKey _ _ _) fun _ => .bind (h.ykReadResponseFromKey _ _ _ _) fun _ =>
      .pure _

/-! ## Write commands -/

theorem ykWrite (ykCmd : UInt8) (buf : List UInt8) (len : ℕ) :
    Sim (SameWorld D) (ykWrite H ykCmd buf len) (ykWrite H' ykCmd buf len) :=
  .bind h.ykGetStatus fun _ => .bind (h.ykWriteToKey _ _ _) fun _ =>
    .bind (h.ykWaitForKeyStatus _ _ _ _ _) fun _ => .bind h.ykGetStatus fun _ =>
      .bind (sim_setErrno _) fun _ => .ite (.pure _) (.ite (.pure _) .fail)

theorem ykWriteCommand (cfg : Option YkConfig) (command : UInt8)
    (accCode : Option (Vector UInt8 accCodeSize)) : Sim (SameWorld D)
      (ykWriteCommand H cfg command accCode) (ykWriteCommand H' cfg command accCode) := by
  have hcrc : updateCrc H = updateCrc H' := by
    funext c
    unfold updateCrc
    rw [h.endian, h.yubikeyCrc16]
  have hblock : commandBlock H = commandBlock H' := by
    funext c a
    unfold commandBlock
    rw [h.endian]
  unfold YkPers.ykWriteCommand
  rw [hcrc, hblock]
  exact .bind (h.ykWrite _ _ _) fun _ => .pure _

theorem ykWriteNdef2 (ndef : YkNdef) (confnum : Int) :
    Sim (SameWorld D) (ykWriteNdef2 H ndef confnum) (ykWriteNdef2 H' ndef confnum) :=
  .ite (h.ykWrite _ _ _) (.ite (h.ykWrite _ _ _) (sim_failWith _))

theorem ykWriteDeviceConfig (deviceConfig : YkDeviceConfig) : Sim (SameWorld D)
    (ykWriteDeviceConfig H deviceConfig) (ykWriteDeviceConfig H' deviceConfig) := by
  unfold YkPers.ykWriteDeviceConfig
  rw [h.endian]
  exact h.ykWrite _ _ _

end HostSim

end YkPers
