import YkPers.Backend

/-!
# The core functions

The functions of `ykcore.c` that talk to a key, in the order of their dependence: polling the
status byte, reading a response, writing a frame, and the commands built from these.

An `unsigned int` is a natural number taken modulo `2 ^ 32` where a sum may leave its range. The
fuel of a loop is more than the iterations it can make, so `diverge` never comes from these
functions as they are called (`ykWaitForKeyStatus_terminates`, `ykReadResponseFromKey_exits`).
-/

namespace YkPers

variable {σ : Type} (H : Host σ)

/-- The longest wait for a write to be processed, in milliseconds. -/
def waitForWriteFlag : ℕ := 1150

def ykFlagMayblock : UInt32 := 0x10000

def ykCrcOkResidual : UInt16 := 0xf0b8

/-- An array of `n` bytes, zeroed and then filled from its start. -/
def bytesVector (n : ℕ) (l : List UInt8) : Vector UInt8 n := Vector.ofFn fun i => l.getD i 0

/-- The first `n` bytes at a pointer: those past its buffer are not the caller's. -/
def loadBytes {S : Type} (buf : List UInt8) (n : ℕ) : Proc S (List UInt8) :=
  if n ≤ buf.length then pure (buf.take n) else Proc.fault

def ykEndianSwap16 (e : Endian) (x : UInt16) : UInt16 :=
  let testflag := (e.bytes16 0x0102).head? = some 1
  if testflag then (x >>> 8) ||| ((x &&& 0xff) <<< 8) else x

theorem toList_bytesVector {n : ℕ} {l : List UInt8} (h : l.length ≤ n) :
    (bytesVector n l).toList = l ++ List.replicate (n - l.length) 0 := by
  apply List.ext_getElem
  · simp
    omega
  · intro i h1 h2
    simp only [bytesVector, Vector.getElem_toList, Vector.getElem_ofFn, List.getElem_append,
      List.getElem_replicate, List.getD_eq_getElem?_getD]
    split_ifs with hi <;> simp [hi]

/-- On either host, the swapped value lies in memory low byte first. -/
theorem bytes16_ykEndianSwap16 (e : Endian) (x : UInt16) :
    e.bytes16 (ykEndianSwap16 e x) = Endian.little.bytes16 x := by
  cases e with
  | little => rfl
  | big =>
    have hmask : ∀ i < 8, (255#16).getLsbD i = true := by decide
    have hlow : (((x >>> 8) ||| ((x &&& 0xff) <<< 8)) >>> 8).toUInt8 = x.toUInt8 := by
      apply UInt8.toBitVec_inj.1
      apply BitVec.eq_of_getLsbD_eq
      intro i hi
      have hout : x.toBitVec.getLsbD (8 + (8 + i)) = false := BitVec.getLsbD_of_ge _ _ (by omega)
      have hin : 8 + i < 16 ∧ ¬ 8 + i < 8 := by omega
      simp [hin, hout, hi, -BitVec.getLsbD_eq_getElem]
      exact fun _ => hmask i hi
    have hhigh : ((x >>> 8) ||| ((x &&& 0xff) <<< 8)).toUInt8 = (x >>> 8).toUInt8 := by
      apply UInt8.toBitVec_inj.1
      apply BitVec.eq_of_getLsbD_eq
      intro i hi
      simp [hi]
    have hswap : ykEndianSwap16 .big x = (x >>> 8) ||| ((x &&& 0xff) <<< 8) := rfl
    rw [hswap]
    simp only [Endian.bytes16, hlow, hhigh]

/-! ## Polling -/

def dummyReport : Report :=
  Vector.ofFn fun i => if i.val = featureRptSize - 1 then dummyReportWrite else 0

def ykForceKeyUpdate : Yk σ Unit := H.write dummyReport

def statusMet (logicAnd : Bool) (mask status : UInt8) : Bool :=
  if logicAnd then status &&& mask == mask else status &&& mask == 0

def waitsForUser (status : UInt8) : Bool :=
  status &&& respTimeoutWaitFlag == respTimeoutWaitFlag

/-- Exponential backoff, up to 500 ms. -/
def backoff (sleepval : ℕ) : ℕ := if 500 < sleepval * 2 then 500 else sleepval * 2

def waitLoop (flags : UInt32) (logicAnd : Bool) (mask : UInt8) :
    (fuel sleepval sleptTime maxTimeMs : ℕ) → (blocking : Bool) → Yk σ Report
  | 0, _, _, _, _ => Proc.diverge
  | fuel + 1, sleepval, sleptTime, maxTimeMs, blocking =>
    if sleptTime < maxTimeMs then do
      sleep sleepval
      let data ← H.read
      if statusMet logicAnd mask data.status then
        pure data
      else if waitsForUser data.status then
        if flags &&& ykFlagMayblock == ykFlagMayblock then
          waitLoop flags logicAnd mask fuel (backoff sleepval) (u32 (sleptTime + sleepval))
            (if blocking then maxTimeMs else u32 (maxTimeMs + 256 * 1000)) true
        else do
          -- the result of the reset is not looked at
          let _ ← Proc.attempt (ykForceKeyUpdate H)
          failWith .EWOULDBLOCK
      else if blocking then
        failWith .ETIMEOUT
      else
        waitLoop flags logicAnd mask fuel (backoff sleepval) (u32 (sleptTime + sleepval))
          maxTimeMs blocking
    else
      failWith .ETIMEOUT

/-- Returns the last report read, which the source copies to `last_data`. -/
def ykWaitForKeyStatus (_slot : UInt8) (flags : UInt32) (maxTimeMs : ℕ) (logicAnd : Bool)
    (mask : UInt8) : Yk σ Report :=
  waitLoop H flags logicAnd mask (maxTimeMs + 256 * 1000 + 1) 1 0 maxTimeMs false

/-! ## Reading a response -/

/-- The closest multiple of 7 that is not below `n`. -/
def roundUp7 (n : ℕ) : ℕ := if n % 7 ≠ 0 then u32 (n + (7 - n % 7)) else n

def verifyResponse (expectBytes bytesRead : ℕ) (buf : List UInt8) : Yk σ Unit :=
  if 0 < expectBytes then do
    let expectBytes := u32 (expectBytes + 2)
    let bytes ← loadBytes buf expectBytes
    if H.yubikeyCrc16 bytes ≠ ykCrcOkResidual then
      failWith .ECHECKSUM
    else if bytesRead ≠ roundUp7 expectBytes then
      failWith .EWRONGSIZ
    else
      pure ()
  else
    pure ()

def isPending (r : Report) : Bool := r.status &&& respPendingFlag != 0

def sequenceNumber (r : Report) : UInt8 := r.status &&& 31

def readResponseLoop (bufsize expectBytes : ℕ) :
    (fuel bytesRead : ℕ) → (buf : List UInt8) → Yk σ (List UInt8 × ℕ)
  | 0, _, _ => Proc.diverge
  | fuel + 1, bytesRead, buf =>
    if u32 (bytesRead + featureRptSize) ≤ bufsize then do
      let data ← H.read
      if isPending data then
        if sequenceNumber data == 0 then do
          verifyResponse H expectBytes bytesRead buf
          let _ ← Proc.attempt (ykForceKeyUpdate H)
          pure (buf, bytesRead)
        else do
          let buf ← memcpy buf bytesRead data.data
          readResponseLoop bufsize expectBytes fuel (bytesRead + (featureRptSize - 1)) buf
      else do
        let _ ← Proc.attempt (ykForceKeyUpdate H)
        Proc.fail
    else do
      let _ ← Proc.attempt (ykForceKeyUpdate H)
      failWith .EWRONGSIZ

/-- Returns the buffer and `*bytes_read`. -/
def ykReadResponseFromKey (slot : UInt8) (flags bufsize expectBytes : UInt32) :
    Yk σ (List UInt8 × ℕ) := do
  let buf := List.replicate bufsize.toNat 0
  let data ← ykWaitForKeyStatus H slot flags 1000 true respPendingFlag
  let buf ← memcpy buf 0 data.data
  readResponseLoop H bufsize.toNat expectBytes.toNat (bufsize.toNat + 1) (featureRptSize - 1) buf

/-! ## Writing a frame -/

def ykFrame (slot : UInt8) (bytes : List UInt8) : YkFrame where
  payload := bytesVector slotDataSize bytes
  slot := slot
  crc := ykEndianSwap16 H.endian (H.yubikeyCrc16 (bytesVector slotDataSize bytes).toList)
  filler := bytesVector 3 []

/-- `repbuf`: a part of the frame, and its sequence number with the write flag. -/
def partReport (seq : ℕ) (part : List UInt8) : Report :=
  Report.ofBytes (part ++ [UInt8.ofNat seq ||| slotWriteFlag])

/-- The loop over the parts: `left` of them are between `ptr` and the end of the frame. -/
def sendParts (slot : UInt8) : (left seq : ℕ) → (ptr : List UInt8) → Yk σ Unit
  | 0, _, _ => pure ()
  | left + 1, seq, ptr =>
    let part := ptr.take (featureRptSize - 1)
    let ptr := ptr.drop (featureRptSize - 1)
    if part.all (· == 0) && 0 < seq && 0 < left then
      sendParts slot left (seq + 1) ptr
    else do
      let _ ← ykWaitForKeyStatus H slot 0 waitForWriteFlag false slotWriteFlag
      H.write (partReport seq part)
      sendParts slot left (seq + 1) ptr

def ykWriteToKey (slot : UInt8) (buf : List UInt8) (bufcount : Int32) : Yk σ Unit :=
  if slotDataSize < sizeT bufcount then
    failWith .EWRONGSIZ
  else do
    let bytes ← loadBytes buf (sizeT bufcount)
    let frame := (ykFrame H slot bytes).bytes H.endian
    sendParts H slot (frame.length / (featureRptSize - 1)) 0 frame

/-! ## Status, serial number, capabilities, challenge-response -/

/-- The first byte of the report is disregarded. Returns the bytes and `*bufcount`. -/
def ykReadFromKey (_slot : UInt8) (bufsize : ℕ) : Yk σ (List UInt8 × ℕ) :=
  if featureRptSize - 1 < bufsize then
    failWith .EWRONGSIZ
  else do
    let data ← H.read
    pure ((data.toList.drop 1).take bufsize, bufsize)

def YkStatus.ofBytes (e : Endian) (l : List UInt8) : YkStatus where
  versionMajor := l.getD 0 0
  versionMinor := l.getD 1 0
  versionBuild := l.getD 2 0
  pgmSeq := l.getD 3 0
  touchLevel := e.read16 (l.getD 4 0) (l.getD 5 0)

def ykGetStatus : Yk σ YkStatus := do
  let (bytes, statusCount) ← ykReadFromKey H 0 ykStatusSize
  if statusCount ≠ ykStatusSize then
    failWith .EWRONGSIZ
  else
    let status := YkStatus.ofBytes H.endian bytes
    pure { status with touchLevel := ykEndianSwap16 H.endian status.touchLevel }

def ykGetSerial (slot : UInt8) (flags : UInt32) : Yk σ UInt32 := do
  let buf := List.replicate (featureRptSize * 2) 0
  ykWriteToKey H slotDeviceSerial buf 0
  let (buf, _) ← ykReadResponseFromKey H slot flags (UInt32.ofNat (featureRptSize * 2)) 4
  pure (((buf.getD 0 0).toUInt32 <<< 24) + ((buf.getD 1 0).toUInt32 <<< 16) +
    ((buf.getD 2 0).toUInt32 <<< 8) + (buf.getD 3 0).toUInt32)

/-- Returns the buffer and the new `*len`. -/
def ykGetCapabilities (slot : UInt8) (flags : UInt32) (capabilities : List UInt8) (len : UInt32) :
    Yk σ (List UInt8 × ℕ) := do
  ykWriteToKey H slotYk4Capabilities capabilities 0
  let (capabilities, _) ← ykReadResponseFromKey H slot flags len 0
  let responseLen := (capabilities.getD 0 0).toNat + 1
  if len.toNat < responseLen then
    failWith .EWRONGSIZ
  else
    pure (capabilities, responseLen)

/-- The length of the response to a challenge, for the commands that have one. -/
def chalRespBytes (ykCmd : UInt8) : Option UInt32 :=
  if ykCmd = slotChalHmac1 ∨ ykCmd = slotChalHmac2 then some 20
  else if ykCmd = slotChalOtp1 ∨ ykCmd = slotChalOtp2 then some 16
  else none

def ykChallengeResponse (ykCmd : UInt8) (mayBlock : Bool) (challengeLen : UInt32)
    (challenge : List UInt8) (responseLen : UInt32) : Yk σ (List UInt8) :=
  match chalRespBytes ykCmd with
  | none => failWith .EINVALIDCMD
  | some expectBytes => do
    let flags := if mayBlock then ykFlagMayblock else 0
    ykWriteToKey H ykCmd challenge (Int32.ofNat challengeLen.toNat)
    let (response, _) ← ykReadResponseFromKey H ykCmd flags responseLen expectBytes
    pure response

/-! ## Write commands -/

/-- The key has no valid configuration and its programming sequence is 0, as after an erase. -/
def YkStatus.erased (stat : YkStatus) : Bool :=
  stat.touchLevel &&& (config1Valid ||| config2Valid) == 0 && stat.pgmSeq == 0

def ykWrite (ykCmd : UInt8) (buf : List UInt8) (len : ℕ) : Yk σ Unit := do
  let stat ← ykGetStatus H
  let seq := stat.pgmSeq
  ykWriteToKey H ykCmd buf (Int32.ofNat len)
  let _ ← ykWaitForKeyStatus H ykCmd 0 waitForWriteFlag false slotWriteFlag
  let stat ← ykGetStatus H
  setErrno .EWRITEERR
  if stat.erased then
    pure ()
  else if stat.pgmSeq ≠ seq then
    pure ()
  else
    Proc.fail

def ykWriteDeviceInfo (buf : List UInt8) (len : UInt32) : Yk σ Unit :=
  ykWrite H slotYk4SetDeviceInfo buf len.toNat

/-- The configuration with its checksum brought up to date. -/
def updateCrc (cfg : YkConfig) : YkConfig :=
  let crc := ~~~ H.yubikeyCrc16 cfg.bytesBeforeCrc
  { cfg with crc := ykEndianSwap16 H.endian crc }

/-- The block that is sent: the configuration and the access code, each if present. -/
def commandBlock (cfg : Option YkConfig) (accCode : Option (Vector UInt8 accCodeSize)) :
    List UInt8 :=
  let buf := List.replicate (ykConfigSize + accCodeSize) 0
  let buf := match cfg with
    | some c => Buffer.store buf 0 (c.bytes H.endian)
    | none => buf
  match accCode with
  | some a => Buffer.store buf ykConfigSize a.toList
  | none => buf

/-- Returns what `*cfg` holds afterwards. -/
def ykWriteCommand (cfg : Option YkConfig) (command : UInt8)
    (accCode : Option (Vector UInt8 accCodeSize)) : Yk σ (Option YkConfig) := do
  let cfg := cfg.map (updateCrc H)
  let buf := commandBlock H cfg accCode
  ykWrite H command buf buf.length
  pure cfg

def ykWriteConfig (cfg : Option YkConfig) (confnum : Int)
    (accCode : Option (Vector UInt8 accCodeSize)) : Yk σ (Option YkConfig) :=
  if confnum = 1 then ykWriteCommand H cfg slotConfig accCode
  else if confnum = 2 then ykWriteCommand H cfg slotConfig2 accCode
  else failWith .EINVALIDCMD

def ykWriteNdef2 (ndef : YkNdef) (confnum : Int) : Yk σ Unit :=
  if confnum = 1 then ykWrite H slotNdef ndef.bytes ykNdefSize
  else if confnum = 2 then ykWrite H slotNdef2 ndef.bytes ykNdefSize
  else failWith .EINVALIDCMD

def ykWriteNdef (ndef : YkNdef) : Yk σ Unit := ykWriteNdef2 H ndef 1

def ykWriteDeviceConfig (deviceConfig : YkDeviceConfig) : Yk σ Unit :=
  ykWrite H slotDeviceConfig (deviceConfig.bytes H.endian) ykDeviceConfigSize

def ykWriteScanMap (scanCodes : List UInt8) : Yk σ Unit :=
  ykWrite H slotScanMap scanCodes scanMap.length

end YkPers
