import YkPers.Lib.Simulation
import YkPers.Ykpersonalize

/-!
# A walk through the functions of `main`

What is said of a procedure (what it leaves as it was, that it tells of its failure, that it runs
alike over two backends) is said of the functions of `main` if it is said of their steps. The steps
are the fields of `MainFrame`, for what never fails, and of the frames that extend it: `ErrFrame`
and `FailFrame` by the two ways to fail, `OptionFrame` and `FileFrame` by the log and by what
changes the configuration. The calls of the key are hypotheses of the functions that make them.
-/

namespace YkPers

open Proc (Alone Moves attempt)

/-- Something that is said of two procedures over two backends. -/
abbrev MainRel (σ σ' : Type) := Proc.Rel (MainState σ) (MainState σ')

section Steps

variable {σ σ' α β : Type}

/-- `P` is said of calls of the key whose failure is looked at. -/
def MainRel.Calls (P : MainRel σ σ') (x : Yk σ α) (y : Yk σ' α) : Prop :=
  P (attempt (onSession (onKey x))) (attempt (onSession (onKey y)))

/-- The variables of two states are the same. -/
structure Alike (m : MainState σ) (m' : MainState σ') : Prop where
  args : m.session.args = m'.session.args
  ykErrno : m.session.world.ykErrno = m'.session.world.ykErrno
  keyOpen : m.keyOpen = m'.keyOpen
  data : m.data = m'.data
  accessCode : m.accessCode = m'.accessCode

theorem Alike.refl (m : MainState σ) : Alike m m := ⟨rfl, rfl, rfl, rfl, rfl⟩

theorem Alike.cfg {m : MainState σ} {m' : MainState σ'} (h : Alike m m') : m.cfg = m'.cfg := by
  unfold MainState.cfg
  rw [h.args]

theorem onConfig_run (x : Proc YkpState α) (m : MainState σ) :
    onConfig x m = ((x m.session.args.ykp).1,
      { m with session.args.ykp := (x m.session.args.ykp).2 }) := rfl

def KeepsCfg (x : Proc YkpState α) : Prop := Moves (fun s s' => s'.cfg = s.cfg) x

/-- A look at the configuration, which never fails. -/
structure Looks (x : Proc YkpState α) : Prop where
  same : KeepsCfg x
  never : Proc.Fails (fun _ => False) x

namespace Looks

theorem pure (a : α) : Looks (pure a : Proc YkpState α) := ⟨fun _ => rfl, .pure a⟩

theorem fault : Looks (Proc.fault : Proc YkpState α) :=
  ⟨fun _ => rfl, fun _ _ h => by cases (Prod.mk.inj h).1⟩

theorem bind {x : Proc YkpState α} {f : α → Proc YkpState β} (hx : Looks x)
    (hf : ∀ a, Looks (f a)) : Looks (x >>= f) where
  same := .bind (fun _ _ _ h k => k.trans h) hx.same fun a => (hf a).same
  never := .bind hx.never fun a => (hf a).never

theorem ite {c : Prop} [Decidable c] {x y : Proc YkpState α} (hx : Looks x) (hy : Looks y) :
    Looks (if c then x else y) := ⟨.ite hx.same hy.same, .ite hx.never hy.never⟩

theorem onConfig {x : Proc YkpState α} (hx : Looks x) :
    Proc.Fails (fun _ => False) (onConfig x : Proc (MainState σ) α) := by
  intro m m' h
  rw [onConfig_run] at h
  exact hx.never _ _ (Proc.run_eq (Prod.mk.inj h).1)

end Looks

theorem looks_export (Y : Encoders) (L : JsonC) (cfg : YkpConfig) (buf : List Char) (len : ℕ)
    (format : Int32) : Looks (ykpExportConfig Y L cfg buf len format) := by
  have hjson : Looks (ykpJsonExportCfg Y L cfg buf len) := by
    refine .ite .fault ?_
    dsimp only
    split
    · exact .fault
    · exact .pure _
  have herror : Looks (Proc.modify fun s : YkpState => { s with ykpErrno := some .EINVAL }) :=
    ⟨fun _ => rfl, fun _ _ h => by cases (Prod.mk.inj h).1⟩
  exact .ite (.bind hjson fun _ => .pure _) <|
    .ite (.ite .fault (.ite .fault (.pure _))) (.bind herror fun _ => .pure _)

theorem looks_configNum : Looks ykpConfigNum where
  same := .get_bind fun _ => .ite (fun _ => rfl) <| .ite (fun _ => rfl) fun _ => rfl
  never s s' h := by
    rw [ykpConfigNum, Proc.get_bind_run] at h
    split_ifs at h <;> cases (Prod.mk.inj h).1

theorem keepsCfg_constructNdef (s : ArgsState) : KeepsCfg
    (if s.ndefType = some 'U' then ykpConstructNdefUri ykpAllocNdef s.ndef
    else if s.ndefType = some 'T' then ykpConstructNdefText ykpAllocNdef s.ndef "en".toList false
    else Proc.fail) := by
  refine .ite ?_ (.ite ?_ fun _ => rfl)
  · unfold ykpConstructNdefUri
    exact .ite (fun _ => rfl) fun _ => rfl
  · unfold ykpConstructNdefText
    exact .ite (fun _ => rfl) fun _ => rfl

end Steps

section Frames

variable {σ σ' : Type}

/-- The steps that neither fail nor touch the log and the configuration. -/
structure MainFrame (P : MainRel σ σ') : Prop where
  pure : ∀ {α : Type} (a : α), P (Pure.pure a) (Pure.pure a)
  fault : ∀ {α : Type}, P (Proc.fault : Proc (MainState σ) α) Proc.fault
  bind : ∀ {α β : Type} {x : Proc (MainState σ) α} {y : Proc (MainState σ') α}
    {f : α → Proc (MainState σ) β} {g : α → Proc (MainState σ') β},
    P x y → (∀ a, P (f a) (g a)) → P (x >>= f) (y >>= g)
  get_bind : ∀ {α : Type} {f : MainState σ → Proc (MainState σ) α}
    {g : MainState σ' → Proc (MainState σ') α},
    (∀ m m', Alike m m' → P (f m) (g m')) → P (Proc.get >>= f) (Proc.get >>= g)
  printf : ∀ text, P (printf text) (printf text)
  stderr : ∀ f : ArgsState → List ErrOutput,
    P (onSession (onArgs (Proc.modify fun s => { s with stderr := f s })))
      (onSession (onArgs (Proc.modify fun s => { s with stderr := f s })))
  data : ∀ f : List Char → List Char,
    P (Proc.modify fun m => { m with data := f m.data })
      (Proc.modify fun m => { m with data := f m.data })
  looks : ∀ {α : Type} {x : Proc YkpState α}, Looks x → P (onConfig x) (onConfig x)

/-- A failure with the exit code 1 as well. -/
structure ErrFrame (P : MainRel σ σ') : Prop extends MainFrame P where
  errOne : ∀ {α : Type}, P (errOne : Proc (MainState σ) α) errOne

/-- The steps over the options. -/
structure OptionFrame (P : MainRel σ σ') : Prop extends ErrFrame P where
  step : ∀ step ok, P (logAct (.step step ok)) (logAct (.step step ok))
  attemptConfig : ∀ {α : Type} (x : Proc YkpState α),
    P (attempt (onConfig x)) (attempt (onConfig x))
  accessCode : ∀ f : List UInt8 → List UInt8,
    P (Proc.modify fun m => { m with accessCode := f m.accessCode })
      (Proc.modify fun m => { m with accessCode := f m.accessCode })

/-- A failure that leaves the exit code, and what is read, as well. -/
structure FailFrame (P : MainRel σ σ') : Prop extends MainFrame P where
  fail : ∀ {α : Type}, P (Proc.fail : Proc (MainState σ) α) Proc.fail
  stdin : ∀ f : ArgsState → List Char,
    P (onSession (onArgs (Proc.modify fun s => { s with stdin := f s })))
      (onSession (onArgs (Proc.modify fun s => { s with stdin := f s })))
  attemptSame : ∀ {α : Type} {x : Proc YkpState α}, KeepsCfg x →
    P (attempt (onConfig x)) (attempt (onConfig x))

/-- The import and the answers. -/
structure FileFrame (P : MainRel σ σ') : Prop extends FailFrame P where
  step : ∀ step ok, P (logAct (.step step ok)) (logAct (.step step ok))
  answer : ∀ line, P (logAct (.answer line)) (logAct (.answer line))
  config : ∀ {α : Type} (x : Proc YkpState α), P (onConfig x) (onConfig x)
  attemptConfig : ∀ {α : Type} (x : Proc YkpState α),
    P (attempt (onConfig x)) (attempt (onConfig x))

/-- All that `main` does but for its calls. -/
structure RunFrame (P : MainRel σ σ') : Prop extends OptionFrame P, FileFrame P

end Frames

/-! ## Parts of the run -/

section Parts

variable {σ : Type} (U : Usb σ) (M : MainEnv)

/-- `prepare` behind `args_to_config`. -/
def afterOptions (st : YkStatus) : Proc (MainState σ) (Option Input × Output) := do
  applyOathId U M st
  applyAccessCode M
  applyNewAccessCode M
  printSerial U st
  printf "\n"
  let inf ← openInput M
  let outf ← openOutput M
  pure (inf, outf)

/-- `commit` behind an answer that agrees. -/
def confirmed : Proc (MainState σ) Unit := do
  let m ← Proc.get
  let s := m.session.args
  printIf s.verbose "Attempting to write configuration to the yubikey..."
  if s.dryRun then printf "Not writing anything to key due to dry_run requested.\n"
  else do
    let written ← writeKey U
    printIf (s.verbose && written) " success\n"

/-- `personalize` behind `prepare`. -/
def withFiles (files : Option Input × Output) : Proc (MainState σ) (Option ℕ) :=
  match files.2 with
  | .exit code => pure (some code)
  | .file fwrite => do
    importFile M files.1
    exportFile M fwrite
    setExitCode 0
    pure none
  | .none => do
    importFile M files.1
    commit U M
    setExitCode 0
    pure none

theorem prepare_eq (fuel : ℕ) (keyIndex : ℤ) :
    prepare U M fuel keyIndex = parseOptions U M fuel keyIndex >>= afterOptions U M := rfl

theorem commit_eq : commit U M = announce M >>= fun _ => eprintf "\nCommit? (y/n) [n]: " >>=
    fun _ => readAnswer >>= fun answer =>
      if agrees answer then setExitCode 2 >>= fun _ => confirmed U else pure ⟨⟩ := rfl

theorem personalize_eq (fuel : ℕ) (keyIndex : ℤ) :
    personalize U M fuel keyIndex = prepare U M fuel keyIndex >>= withFiles U M := rfl

end Parts

section Walk

variable {σ σ' α β : Type} {P : MainRel σ σ'} {U : Usb σ} {V : Usb σ'} (M : MainEnv)

/-! ## Where nothing fails -/

namespace MainFrame

variable (F : MainFrame P)
include F

theorem bind_option {x : Proc (MainState σ) (Option α)} {y : Proc (MainState σ') (Option α)}
    {f : Option α → Proc (MainState σ) β} {g : Option α → Proc (MainState σ') β} (hx : P x y)
    (hsome : ∀ a, P (f (some a)) (g (some a))) (hnone : P (f none) (g none)) :
    P (x >>= f) (y >>= g) := by
  refine F.bind hx fun r => ?_
  cases r with
  | some a => exact hsome a
  | none => exact hnone

theorem eprintf (text : String) : P (eprintf text) (eprintf text) :=
  F.stderr fun s => s.stderr ++ [ErrOutput.text text]

theorem printIf (c : Bool) (text : String) : P (printIf c text) (printIf c text) :=
  P.ite (F.printf text) (F.pure _)

theorem optionStep {step : OptionStep} {x : Proc (MainState σ) α} {y : Proc (MainState σ') α}
    (hlog : ∀ ok, P (logAct (.step step ok)) (logAct (.step step ok)))
    (hx : P (attempt x) (attempt y)) : P (optionStep step x) (optionStep step y) :=
  F.bind hx fun r => F.bind (hlog _) fun _ => F.pure r

theorem printStatus (st : YkStatus) : P (printStatus st) (printStatus st) :=
  F.bind (F.printf _) fun _ => P.ite (F.printf _) (F.printf _)

/-- The firmware is never rejected. -/
theorem checkFirmware (st : YkStatus) : P (checkFirmware st) (checkFirmware st) := F.pure _

theorem printSerial (hserial : P.Calls (ykGetSerial U.toHost 0 0) (ykGetSerial V.toHost 0 0))
    (st : YkStatus) : P (printSerial U st) (printSerial V st) := by
  refine F.get_bind fun m m' hm => ?_
  rw [hm.args]
  exact P.ite (F.bind_option hserial (fun _ => F.printf _) (F.printf _)) (F.pure _)

theorem openOutput : P (openOutput M) (openOutput M) := by
  refine F.get_bind fun m m' hm => ?_
  rw [hm.args]
  cases m'.session.args.outfname with
  | none => exact F.pure _
  | some name =>
    dsimp only
    cases M.writeFile name with
    | ok fwrite => exact F.pure _
    | error message => exact F.bind (F.eprintf _) fun _ => F.pure _

theorem dataText : P dataText dataText := by
  refine F.get_bind fun m m' hm => ?_
  rw [hm.data]
  cases CString.read m'.data with
  | none => exact F.fault
  | some text => exact F.pure _

theorem exportData (format : YkpFormat) : P (exportData M format) (exportData M format) := by
  refine F.get_bind fun m m' hm => ?_
  rw [hm.cfg, hm.data]
  exact F.bind (F.looks (looks_export _ _ _ _ _ _)) fun p => F.bind (F.data fun _ => p.1)
    fun _ => F.pure _

theorem configNum : P configNum configNum := F.looks looks_configNum

theorem announceMode (s : ArgsState) : P (announceMode s) (announceMode s) :=
  F.bind (F.eprintf _) fun _ => P.ite
    (F.bind (F.eprintf _) fun _ => P.ite (F.eprintf _) (F.pure _)) (F.pure _)

theorem announceConfig (s : ArgsState) : P (announceConfig M s) (announceConfig M s) := by
  have htext := F.bind (F.exportData M .legacy) fun _ => F.bind F.dataText fun text =>
    F.eprintf (String.ofList text)
  exact P.ite (F.bind F.configNum fun _ => F.bind (F.eprintf _) fun _ => htext)
    (F.bind (F.eprintf _) fun _ => htext)

theorem announce : P (announce M) (announce M) := by
  refine F.get_bind fun m m' hm => ?_
  rw [hm.args]
  exact P.ite (F.eprintf _) <| P.ite (F.eprintf _) <| P.ite (F.announceMode _) <|
    P.ite (F.eprintf _) <| P.ite (F.eprintf _) <|
      P.ite (F.bind F.configNum fun _ => F.eprintf _) (F.announceConfig M _)

/-! ### The end -/

section Leave

variable (hreport : ∀ e e', P (logAct (.report e e')) (logAct (.report e e')))
include hreport

theorem reportYkError : P reportYkError reportYkError := by
  refine F.get_bind fun m m' hm => ?_
  rw [hm.args, hm.ykErrno]
  exact hreport _ _

variable (hcode : P (setExitCode 2) (setExitCode 2))
include hcode

theorem orReport {f : σ → Except (Option YkErr) Unit × σ}
    {g : σ' → Except (Option YkErr) Unit × σ'} (hcall : P.Calls (busCall f) (busCall g)) :
    P (orReport f) (orReport g) :=
  F.bind_option hcall (fun _ => F.pure _) (F.bind (F.reportYkError hreport) fun _ => hcode)

theorem leave (hclose : P.Calls (busCall U.ykusbCloseDevice) (busCall V.ykusbCloseDevice))
    (hstop : P.Calls (busCall U.ykusbStop) (busCall V.ykusbStop)) (error : Bool) :
    P (leave U error) (leave V error) := by
  refine F.bind (P.ite (F.reportYkError hreport) (F.pure _)) fun _ => F.bind ?_ fun _ =>
    F.bind (F.orReport hreport hcode hstop) fun _ => F.get_bind fun m m' hm => ?_
  · refine F.get_bind fun m m' hm => ?_
    rw [hm.keyOpen]
    exact P.ite (F.orReport hreport hcode hclose) (F.pure _)
  · rw [hm.args]
    exact F.pure _

end Leave

end MainFrame

/-! ## Up to the open files -/

namespace ErrFrame

variable (F : ErrFrame P)
include F

theorem orErrOne {x : Yk σ α} {y : Yk σ' α} (hx : P.Calls x y) : P (orErrOne x) (orErrOne y) :=
  F.bind_option hx (fun a => F.pure a) F.errOne

theorem openKey (hstart : P.Calls (busCall U.ykusbStart) (busCall V.ykusbStart))
    (hopen : ∀ keyIndex, P.Calls (ykOpenKey U keyIndex) (ykOpenKey V keyIndex))
    (hset : P (Proc.modify fun m => { m with keyOpen := true })
      (Proc.modify fun m => { m with keyOpen := true }))
    (hstatus : P.Calls (ykGetStatus U.toHost) (ykGetStatus V.toHost)) (keyIndex : ℤ) :
    P (openKey U keyIndex) (openKey V keyIndex) :=
  F.bind (F.orErrOne hstart) fun _ => F.bind (F.orErrOne (hopen _)) fun _ => F.bind hset fun _ =>
    F.bind (F.orErrOne hstatus) fun st => F.bind (F.printStatus st) fun _ =>
      F.bind (F.checkFirmware st) fun _ => F.pure _

theorem openInput : P (openInput M) (openInput M) := by
  refine F.get_bind fun m m' hm => ?_
  rw [hm.args]
  cases m'.session.args.infname with
  | none => exact F.pure _
  | some name =>
    refine P.ite (F.pure _) ?_
    cases M.readFile name with
    | ok contents => exact F.pure _
    | error message => exact F.bind (F.eprintf _) fun _ => F.errOne

end ErrFrame

namespace OptionFrame

variable (F : OptionFrame P)
include F

theorem applyOathId (st : YkStatus) (hset : ∀ opt,
      P (attempt (onSession (setOathId (M.argsEnv st) U.toHost opt)))
        (attempt (onSession (setOathId (M.argsEnv st) V.toHost opt)))) :
    P (applyOathId U M st) (applyOathId V M st) := by
  refine F.get_bind fun m m' hm => ?_
  rw [hm.args]
  exact P.ite (F.bind (F.optionStep (F.step _) (hset _)) fun _ => F.pure _) (F.pure _)

theorem decodeAccessCode (step : OptionStep) (code : List Char) (shown : String) :
    P (decodeAccessCode M step code shown) (decodeAccessCode M step code shown) := by
  refine F.bind_option (F.optionStep (F.step step) ?_) (fun d => F.pure d)
    (F.bind (F.eprintf _) fun _ => F.errOne)
  split_ifs
  · exact F.pure none
  · exact F.pure (some _)

theorem setAccessCode (d : Decoded) : P (setAccessCode d) (setAccessCode d) :=
  F.bind (F.attemptConfig _) fun _ => F.pure _

theorem applyAccessCode : P (applyAccessCode M) (applyAccessCode M) := by
  refine F.get_bind fun m m' hm => ?_
  rw [hm.args]
  cases m'.session.args.accessCode with
  | none => exact F.pure _
  | some code =>
    exact F.bind (F.decodeAccessCode M _ _ _) fun d => F.bind (F.accessCode (storeFront · d.stored))
      fun _ => P.ite (F.setAccessCode d) (F.pure _)

theorem applyNewAccessCode : P (applyNewAccessCode M) (applyNewAccessCode M) := by
  refine F.get_bind fun m m' hm => ?_
  rw [hm.args]
  cases m'.session.args.newAccessCode with
  | none => exact F.pure _
  | some code => exact F.bind (F.decodeAccessCode M _ _ _) fun d => F.setAccessCode d

/-- Behind `args_to_config`. -/
theorem afterOptions (st : YkStatus) (hset : ∀ opt,
      P (attempt (onSession (setOathId (M.argsEnv st) U.toHost opt)))
        (attempt (onSession (setOathId (M.argsEnv st) V.toHost opt))))
    (hserial : P.Calls (ykGetSerial U.toHost 0 0) (ykGetSerial V.toHost 0 0)) :
    P (afterOptions U M st) (afterOptions V M st) :=
  F.bind (F.applyOathId M st hset) fun _ => F.bind (F.applyAccessCode M) fun _ =>
    F.bind (F.applyNewAccessCode M) fun _ => F.bind (F.printSerial hserial st) fun _ =>
      F.bind (F.printf _) fun _ => F.bind (F.openInput M) fun _ => F.bind (F.openOutput M) fun _ =>
        F.pure _

end OptionFrame

/-! ## Files and the commit -/

namespace FailFrame

variable (F : FailFrame P)
include F

theorem fread (inf : Input) : P (fread inf) (fread inf) := by
  cases inf with
  | stdin =>
    refine F.get_bind fun m m' hm => ?_
    rw [hm.args]
    exact F.bind (F.stdin fun s => s.stdin.drop 1024) fun _ => F.pure _
  | file contents => exact F.pure _

theorem exportFile (fwrite : List Char → Bool) : P (exportFile M fwrite) (exportFile M fwrite) := by
  refine F.get_bind fun m m' hm => ?_
  rw [hm.args]
  exact F.bind (F.exportData M _) fun _ => P.ite F.fail <|
    F.bind F.dataText fun _ => P.ite (F.pure _) F.fail

theorem constructNdef (s : ArgsState) : P (constructNdef s) (constructNdef s) :=
  F.bind_option (F.attemptSame (keepsCfg_constructNdef s)) (fun ndef => F.pure ndef)
    (F.bind (F.printIf _ _) fun _ => F.fail)

end FailFrame

namespace FileFrame

variable (F : FileFrame P)
include F

theorem importFile (inf : Option Input) : P (importFile M inf) (importFile M inf) := by
  cases inf with
  | none => exact F.pure _
  | some inf =>
    refine F.bind (F.config _) fun _ => F.bind (F.fread inf) fun bytes => P.ite F.fail ?_
    refine F.bind (F.data (Buffer.store · 0 bytes)) fun _ => F.bind F.dataText fun text => ?_
    refine F.get_bind fun m m' hm => ?_
    rw [hm.args, hm.data]
    exact F.bind_option (F.optionStep (F.step _) (F.attemptConfig _)) (fun _ => F.pure _) F.fail

theorem readAnswer : P readAnswer readAnswer := by
  refine F.get_bind fun m m' hm => ?_
  rw [hm.args]
  refine P.ite (F.bind (F.printf _) fun _ => F.pure _) ?_
  cases fgets 256 m'.session.args.stdin with
  | none => exact F.bind (F.stderr _) fun _ => F.fail
  | some p => exact F.bind (F.stdin fun _ => p.2) fun _ => F.bind (F.answer _) fun _ => F.pure _

theorem program {call : Programming} (hlog : P (logAct (.program call)) (logAct (.program call)))
    (hcall : P.Calls (call.run U.toHost) (call.run V.toHost)) (failure : String) :
    P (program U call failure) (program V call failure) := by
  refine F.bind hlog fun _ => F.bind_option hcall (fun _ => F.pure _) ?_
  refine F.get_bind fun m m' hm => ?_
  rw [hm.args]
  exact F.bind (F.printIf _ _) fun _ => F.fail

section Write

variable (hprogram : ∀ call failure, P (YkPers.program U call failure)
  (YkPers.program V call failure))
include hprogram

theorem writeNdef (s : ArgsState) : P (writeNdef U s) (writeNdef V s) := by
  refine F.bind (F.constructNdef s) fun ndef => F.get_bind fun m m' hm => ?_
  rw [hm.accessCode]
  exact P.ite (F.bind (F.printIf _ _) fun _ => F.fail) (hprogram _ _)

theorem writeDeviceConfig (s : ArgsState) : P (writeDeviceConfig U s) (writeDeviceConfig V s) :=
  P.ite (F.bind (F.eprintf _) fun _ => F.bind F.readAnswer fun _ =>
      P.ite (F.bind (hprogram _ _) fun _ => F.pure _) (F.pure _))
    (F.bind (hprogram _ _) fun _ => F.pure _)

theorem writeKey : P (writeKey U) (writeKey V) := by
  refine F.get_bind fun m m' hm => ?_
  rw [hm.args, hm.accessCode]
  have hwrite := fun call failure => F.bind (hprogram call failure) fun _ => F.pure true
  exact P.ite (F.bind (F.writeNdef hprogram _) fun _ => F.pure _) <|
    P.ite (F.writeDeviceConfig hprogram _) <| P.ite (hwrite _ _) <|
      P.ite (hwrite _ _) (hwrite _ _)

theorem confirmed : P (confirmed U) (confirmed V) := by
  refine F.get_bind fun m m' hm => ?_
  rw [hm.args]
  exact F.bind (F.printIf _ _) fun _ => P.ite (F.printf _) <|
    F.bind (F.writeKey hprogram) fun _ => F.printIf _ _

variable (hcode : ∀ code, P (setExitCode code) (setExitCode code))
include hcode

theorem commit : P (commit U M) (commit V M) := by
  rw [commit_eq, commit_eq]
  exact F.bind (F.announce M) fun _ => F.bind (F.eprintf _) fun _ => F.bind F.readAnswer fun _ =>
    P.ite (F.bind (hcode 2) fun _ => F.confirmed hprogram) (F.pure _)

theorem withFiles (files : Option Input × Output) :
    P (withFiles U M files) (withFiles V M files) := by
  obtain ⟨inf, outf⟩ := files
  cases outf with
  | exit code => exact F.pure _
  | file fwrite =>
    exact F.bind (F.importFile M inf) fun _ => F.bind (F.exportFile M fwrite) fun _ =>
      F.bind (hcode 0) fun _ => F.pure _
  | none =>
    exact F.bind (F.importFile M inf) fun _ => F.bind (F.commit M hprogram hcode) fun _ =>
      F.bind (hcode 0) fun _ => F.pure _

end Write

end FileFrame

namespace RunFrame

variable (F : RunFrame P)
include F

theorem parseArguments (st : YkStatus) (fuel : ℕ)
    (hargs : P (attempt (onSession (onArgs (argsToConfig (M.argsEnv st) fuel))))
      (attempt (onSession (onArgs (argsToConfig (M.argsEnv st) fuel))))) :
    P (parseArguments M st fuel) (parseArguments M st fuel) :=
  F.bind_option (F.optionStep (F.step _) hargs) (fun _ => F.pure _) F.fail

theorem prepare {fuel : ℕ} {keyIndex : ℤ} (hopen : P (openKey U keyIndex) (openKey V keyIndex))
    (hargs : ∀ st, P (attempt (onSession (onArgs (argsToConfig (M.argsEnv st) fuel))))
      (attempt (onSession (onArgs (argsToConfig (M.argsEnv st) fuel)))))
    (hset : ∀ st opt, P (attempt (onSession (setOathId (M.argsEnv st) U.toHost opt)))
      (attempt (onSession (setOathId (M.argsEnv st) V.toHost opt))))
    (hserial : P.Calls (ykGetSerial U.toHost 0 0) (ykGetSerial V.toHost 0 0)) :
    P (prepare U M fuel keyIndex) (prepare V M fuel keyIndex) := by
  rw [prepare_eq, prepare_eq]
  refine F.bind (F.bind hopen fun st => ?_) fun st => F.afterOptions M st (hset st) hserial
  exact F.bind (F.parseArguments M st fuel (hargs st)) fun _ => F.pure st

end RunFrame

end Walk

/-! ## What one run leaves as it was -/

section Unary

variable {σ : Type} {R : MainState σ → MainState σ → Prop} {m m' : MainState σ}

/-- The output, the data and the errors of the configuration aside, the state is as before. -/
structure SameMain (m m' : MainState σ) : Prop where
  acts : m'.acts = m.acts
  world : m'.session.world = m.session.world
  cfg : m'.cfg = m.cfg
  args : ∃ ykp stderr, m'.session.args = { m.session.args with ykp := ykp, stderr := stderr }

theorem SameMain.refl (m : MainState σ) : SameMain m m := ⟨rfl, rfl, rfl, _, _, rfl⟩

theorem MainFrame.of_moves (ht : ∀ a b c, R a b → R b c → R a c)
    (hsame : ∀ m m', SameMain m m' → R m m') :  MainFrame (Alone (Moves R)) where
  pure := .pure fun m => hsame m m (.refl m)
  fault m := hsame m m (.refl m)
  bind hx hf := .bind ht hx hf
  get_bind hf := .get_bind fun m => hf m m (.refl m)
  printf _ m := hsame m _ ⟨rfl, rfl, rfl, _, _, rfl⟩
  stderr _ m := hsame m _ ⟨rfl, rfl, rfl, _, _, rfl⟩
  data _ m := hsame m _ ⟨rfl, rfl, rfl, _, _, rfl⟩
  looks hx m := hsame m _ ⟨rfl, rfl, hx.same m.session.args.ykp, _, _, rfl⟩

end Unary

end YkPers
