import YkPers.Proofs.Decodes
import YkPers.Proofs.Prepare
import YkPers.ScriptedMain

/-!
# What the exit code says of a failure

The parts of the program set the exit code where they fail, and only there (`Signals`). Six steps
fail without it: an option that the firmware refuses, an input that is empty or no configuration,
an export that gives nothing or cannot be written, and a prompt that reads no answer
(`exitCode_ne_zero_iff`).
-/

namespace YkPers

open Proc (Alone Moves)

/-! ## Steps that signal their failure -/

/-- The exit code is kept where `x` returns, and it is not 0 where `x` fails. -/
structure Signals {S α : Type} (code : S → ℕ) (x : Proc S α) : Prop where
  keeps : ∀ s a s', x s = (.ok a, s') → code s' = code s
  loud : ∀ s s', x s = (.fail, s') → code s' ≠ 0

namespace Signals

variable {S T α β : Type} {code : S → ℕ}

theorem pure (a : α) : Signals code (pure a : Proc S α) where
  keeps _ _ _ h := by rw [(Prod.mk.inj h).2]
  loud _ _ h := by cases (Prod.mk.inj h).1

theorem diverge : Signals code (Proc.diverge : Proc S α) where
  keeps _ _ _ h := by cases (Prod.mk.inj h).1
  loud _ _ h := by cases (Prod.mk.inj h).1

theorem bind {x : Proc S α} {f : α → Proc S β} (hx : Signals code x)
    (hf : ∀ a, Signals code (f a)) : Signals code (x >>= f) where
  keeps := Proc.ok_bind (R := fun s s' => code s' = code s) (fun _ _ _ h k => k.trans h)
    hx.keeps fun a => (hf a).keeps
  loud := Proc.Fails.bind hx.loud fun a => (hf a).loud

theorem get_bind {f : S → Proc S β} (hf : ∀ t, Signals code (f t)) :
    Signals code (Proc.get >>= f) where
  keeps s := (hf s).keeps s
  loud s := (hf s).loud s

theorem ite {c : Prop} [Decidable c] {x y : Proc S α} (hx : Signals code x) (hy : Signals code y) :
    Signals code (if c then x else y) := by
  split_ifs
  · exact hx
  · exact hy

theorem modify {f : S → S} (hf : ∀ s, code (f s) = code s) : Signals code (Proc.modify f) where
  keeps s _ _ h := by rw [← (Prod.mk.inj h).2, hf]
  loud _ _ h := by cases (Prod.mk.inj h).1

/-- A step that keeps the exit code, and never fails. -/
theorem of_never {x : Proc S α} (hx : Moves (fun s s' => code s' = code s) x)
    (hn : Proc.Fails (fun _ => False) x) : Signals code x where
  keeps _ _ _ h := hx.of_eq_ok h
  loud s s' h := (hn s s' h).elim

/-- A step that keeps the exit code, and whose failure is looked at. -/
theorem attempt {x : Proc S α} (hx : Moves (fun s s' => code s' = code s) x) :
    Signals code (Proc.attempt x) where
  keeps _ _ _ h := hx.attempt.of_eq_ok h
  loud _ _ h := (Proc.attempt_ne_fail h).elim

end Signals

theorem Neat.signals {α : Type} {x : Proc ArgsState α} (hx : Neat x) :
    Signals ArgsState.exitCode x where
  keeps := hx.keeps
  loud s s' h := by rw [hx.loud s s' h]; decide

/-! ## The options -/

section Options

variable {E : ArgsEnv} {s s' t : ArgsState} {os : List Getopt.Scanned}

/-- A turn of the loop handles an option with `p`. -/
def Meets (E : ArgsEnv) (s : ArgsState) (p : Getopt.Scanned → ArgsState → Prop) : Prop :=
  ∃ os t o u, Reaches E s os t ∧ scanNext t = (some o, u) ∧ p o u

theorem signals_noteDecode (capacity : ℕ) (d : Decoded) :
    Signals ArgsState.exitCode (noteDecode capacity d) := .ite (.modify fun _ => rfl) (.pure _)

theorem signals_readRandom (source : ℕ → List UInt8) (keyBytes : ℕ) : ∀ (fuel i : ℕ)
    (keybuf : List UInt8), Signals ArgsState.exitCode (readRandom source keyBytes fuel i keybuf)
  | 0, _, _ => .diverge
  | fuel + 1, i, _ => .ite (signals_readRandom source keyBytes fuel (i + 1) _) (.pure _)

theorem signals_randomKey (fuel keyBytes : ℕ) :
    Signals ArgsState.exitCode (randomKey E fuel keyBytes) := by
  unfold randomKey
  split
  · exact signals_readRandom _ _ _ _ _
  · exact .bind (.modify fun _ => rfl) fun _ => .bind Neat.exitOne.signals fun _ => .pure _

theorem signals_keySection (fuel : ℕ) : Signals ArgsState.exitCode (keySection E fuel) := by
  have hstore : ∀ keyBytes key, Signals ArgsState.exitCode (onYkp
      (if keyBytes = 20 then ykpHmacKeyFromRaw key else ykpAesKeyFromRaw key)) :=
    fun _ _ => (Neat.keyFromRaw _ _).signals
  refine .get_bind fun _ => .ite ?_ (.pure _)
  refine .bind (Neat.promptKey _).signals fun _ => .get_bind fun _ => .ite ?_ ?_
  · exact .bind (signals_randomKey _ _) fun _ => hstore _ _
  · refine .bind (.get_bind fun _ => ?_) fun _ => hstore _ _
    exact .bind (signals_noteDecode _ _) fun _ => .bind (Neat.rejectIf _ _).signals fun _ => .pure _

theorem signals_behindLoop (fuel : ℕ) : Signals ArgsState.exitCode (behindLoop E fuel) :=
  .bind Neat.checkAction.signals fun _ => .bind Neat.checkUpdate.signals fun _ =>
    signals_keySection fuel

theorem exitCode_of_reaches (h : Reaches E s os t) : t.exitCode = s.exitCode := by
  refine h.invariant (P := fun _ t => t.exitCode = s.exitCode) rfl ?_
  rintro _ t o u ht ⟨t', hn, hu⟩
  obtain rfl := (Prod.mk.inj hn).2
  exact (handle_keeps hu).1.trans ht

/-- An option that prints the help, or is refused, is where the loop stops. -/
theorem loop_of_meets (h : Meets E s fun o u => helps o = true ∨ Refused E o u)
    (hs : s.exitCode = 0) : ∃ fuel s',
      Turns.loop scanNext (handle E) fuel s = (.fail, s') ∧ s'.exitCode = 0 := by
  obtain ⟨os, t, o, u, ht, hn, hp⟩ := h
  have hu : u.exitCode = 0 := by
    rw [← (Prod.mk.inj hn).2]
    exact (exitCode_of_reaches ht).trans hs
  obtain ⟨s', hrun, hcode⟩ := handle_silent hp hu
  have hstop : (handle E o u).1 ≠ .ok ⟨⟩ := by
    rw [hrun]
    nofun
  refine ⟨os.length + 1, s', ?_, hcode⟩
  rw [Turns.loop_of_reaches ht, Turns.loop_stop hn hstop, hrun]

end Options

section Whole

variable {E : ArgsEnv} {fuel : ℕ} {argv : List (List Char)} {stdin : List Char}
  {scanCodes deviceInfo : List UInt8} {s' : ArgsState}

theorem argsToConfig_of_meets
    (h : Meets E (loopStart E argv stdin scanCodes deviceInfo)
      fun o u => helps o = true ∨ Refused E o u) :
    ∃ fuel s', argsToConfig E fuel (.fresh argv stdin scanCodes deviceInfo) = (.fail, s')
      ∧ s'.exitCode = 0 := by
  obtain ⟨fuel, s', hloop, hcode⟩ := loop_of_meets h rfl
  refine ⟨fuel, s', ?_, hcode⟩
  rw [argsToConfig_eq, Proc.bind_fail hloop]

theorem argsToConfig_exitCode
    (h : argsToConfig E fuel (.fresh argv stdin scanCodes deviceInfo) = (.fail, s')) :
    s'.exitCode = 0 ↔ Meets E (loopStart E argv stdin scanCodes deviceInfo)
      fun o u => helps o = true ∨ Refused E o u := by
  rw [argsToConfig_eq] at h
  have hzero : (loopStart E argv stdin scanCodes deviceInfo).exitCode = 0 := rfl
  generalize loopStart E argv stdin scanCodes deviceInfo = s₀ at h hzero
  -- a loop that ends does so in the same way with other fuel
  have hmeets : ∀ {r t}, Turns.loop scanNext (handle E) fuel s₀ = (r, t) → r ≠ .diverge →
      (Meets E s₀ fun o u => helps o = true ∨ Refused E o u) → r = .fail ∧ t.exitCode = 0 := by
    intro r t hloop hr hm
    obtain ⟨fuel', t', hloop', hcode⟩ := loop_of_meets hm hzero
    have heq : Turns.loop scanNext (handle E) fuel s₀ = Turns.loop scanNext (handle E) fuel' s₀ :=
      Turns.loop_eq_of_ends (by rwa [hloop]) (by rw [hloop']; nofun)
    rw [hloop, hloop'] at heq
    obtain ⟨rfl, rfl⟩ := Prod.mk.inj heq
    exact ⟨rfl, hcode⟩
  rcases Turns.loop_cases scanNext (handle E) fuel s₀ with
    ⟨os, s, t, hs, hn, hloop⟩ | ⟨os, s, o, t, hs, hn, hstop, hloop⟩ | ⟨os, s, hs, -, hloop⟩
  · rw [Proc.bind_ok hloop] at h
    exact iff_of_false ((signals_behindLoop fuel).loud _ _ h) fun hm => by
      cases (hmeets hloop (by nofun) hm).1
  · have hfail : handle E o t = (.fail, s') := by
      rcases Proc.bind_eq_fail.1 h with h | ⟨a, u, hu, -⟩
      · rwa [← hloop]
      · rw [hloop] at hu
        rw [hu] at hstop
        exact absurd rfl hstop
    have ht : t.exitCode = 0 := by
      rw [← (Prod.mk.inj hn).2]
      exact (exitCode_of_reaches hs).trans hzero
    rw [hfail] at hloop
    exact ⟨fun hcode => ⟨os, s, o, t, hs, hn, (handle_fail hfail ht).1 hcode⟩,
      fun hm => (hmeets hloop (by nofun) hm).2⟩
  · rw [Proc.bind_diverge hloop] at h
    cases (Prod.mk.inj h).1

theorem argsToConfig_keeps
    (h : argsToConfig E fuel (.fresh argv stdin scanCodes deviceInfo) = (.ok ⟨⟩, s')) :
    s'.exitCode = 0 := by
  rw [argsToConfig_eq] at h
  obtain ⟨_, t, hloop, h⟩ := Proc.bind_eq_ok.1 h
  rw [(signals_behindLoop fuel).keeps _ _ _ h]
  rcases Turns.loop_cases scanNext (handle E) fuel
    (loopStart E argv stdin scanCodes deviceInfo) with
    ⟨os, s, u, hs, hn, hrun⟩ | ⟨os, s, o, u, hs, hn, hstop, hrun⟩ | ⟨os, s, hs, -, hrun⟩
  · obtain rfl := (Prod.mk.inj (hrun.symm.trans hloop)).2
    rw [← (Prod.mk.inj hn).2]
    exact exitCode_of_reaches hs
  · rw [hrun] at hloop
    rw [hloop] at hstop
    exact absurd rfl hstop
  · rw [hrun] at hloop
    cases (Prod.mk.inj hloop).1

end Whole

/-! ## The program -/

section Program

variable {σ α β : Type}

def MainState.exitCode (m : MainState σ) : ℕ := m.session.args.exitCode

/-- The exit code is as before. -/
def SameCode (m m' : MainState σ) : Prop := m'.exitCode = m.exitCode

theorem SameMain.sameCode {m m' : MainState σ} (h : SameMain m m') : SameCode m m' := by
  obtain ⟨ykp, stderr, hargs⟩ := h.args
  rw [SameCode, MainState.exitCode, hargs]
  rfl

theorem sameCode_fileFrame : FileFrame (Alone (Moves (SameCode (σ := σ)))) where
  toMainFrame := .of_moves (fun _ _ _ h k => k.trans h) fun _ _ h => h.sameCode
  fail _ := rfl
  stdin _ _ := rfl
  step _ _ _ := rfl
  answer _ _ := rfl
  config _ _ := rfl
  attemptConfig _ := Moves.attempt fun _ => rfl
  attemptSame _ := Moves.attempt fun _ => rfl

theorem signals_errOne : Signals MainState.exitCode (errOne : Proc (MainState σ) α) where
  keeps _ _ _ h := by cases (Prod.mk.inj h).1
  loud _ _ h := by
    rw [← (Prod.mk.inj h).2]
    exact Nat.one_ne_zero

theorem signals_optionFrame : OptionFrame (Alone (Signals (MainState.exitCode (σ := σ)))) where
  pure := .pure
  fault := .of_never (fun _ => rfl) fun _ _ h => by cases (Prod.mk.inj h).1
  bind := .bind
  get_bind hf := .get_bind fun m => hf m m (.refl m)
  printf _ := .modify fun _ => rfl
  stderr _ := .of_never (fun _ => rfl) fun _ _ h => by cases (Prod.mk.inj h).1
  data _ := .modify fun _ => rfl
  looks hx := .of_never (fun _ => rfl) hx.onConfig
  errOne := signals_errOne
  step _ _ := .modify fun _ => rfl
  attemptConfig _ := .attempt fun _ => rfl
  accessCode _ := .modify fun _ => rfl

variable (U : Usb σ) (M : MainEnv)

theorem signals_openKey (keyIndex : ℤ) : Signals MainState.exitCode (openKey U keyIndex) :=
  signals_optionFrame.openKey (V := U) (.attempt fun _ => rfl) (fun _ => .attempt fun _ => rfl)
    (.modify fun _ => rfl) (.attempt fun _ => rfl) keyIndex

/-! ### Up to the open files -/

theorem setOathId_exitCode (E : ArgsEnv) (H : Host σ) (opt : List Char) :
    Moves (fun s s' : Session σ => s'.args.exitCode = s.args.exitCode) (setOathId E H opt) := by
  have htrans : ∀ a b c : Session σ, b.args.exitCode = a.args.exitCode →
      c.args.exitCode = b.args.exitCode → c.args.exitCode = a.args.exitCode :=
    fun _ _ _ h k => k.trans h
  have htext : ∀ msg, Moves (fun s s' : Session σ => s'.args.exitCode = s.args.exitCode)
      (failWithText msg : Proc (Session σ) Unit) :=
    fun _ => .bind htrans (fun _ => rfl) fun _ => .fail fun _ => rfl
  have hykp : ∀ x, Moves (fun s s' : Session σ => s'.args.exitCode = s.args.exitCode)
      (onArgs (onYkp x)) := fun _ =>
    .zoom (Q := fun s s' : ArgsState => s'.exitCode = s.exitCode)
      (.zoom (Q := fun _ _ => True) (fun _ => trivial) fun _ _ _ => rfl) fun _ _ h => h
  refine .get_bind fun _ => .ite ?_ (htext _)
  refine .bind htrans (hykp _) fun _ => .bind htrans (hykp _) fun _ => .ite ?_ ?_
  · refine .bind htrans (Moves.attempt (.zoom (setFixed_exitCode E _) fun _ _ h => h)) ?_
    rintro (_ | _)
    · exact htext _
    · exact fun _ => rfl
  · refine .ite (htext _) (.bind htrans (Moves.attempt fun _ => rfl) ?_)
    rintro (_ | serial)
    · exact htext _
    dsimp only
    split
    · exact htext _
    refine .bind htrans (hykp _).attempt ?_
    rintro (_ | _)
    · exact htext _
    · exact fun _ => rfl

theorem signals_afterOptions (st : YkStatus) :
    Signals MainState.exitCode (afterOptions U M st) :=
  signals_optionFrame.afterOptions (V := U) M st
    (fun opt => .attempt (.zoom (setOathId_exitCode _ _ opt) fun _ _ h => h))
    (.attempt fun _ => rfl)

/-! ### The files -/

/-- What `fread` reads. -/
def Input.bytes (m : MainState σ) : Input → List Char
  | .stdin => m.session.args.stdin.take 1024
  | .file contents => contents.take 1024

/-- An input that has nothing, or whose text is not imported. -/
def BadInput (m : MainState σ) : Option Input → Prop
  | none => False
  | some inf => inf.bytes m = [] ∨
    (ykpImportConfig M.jsonC (Buffer.store m.data 0 (inf.bytes m)) m.session.args.dataFormat.code
      (ykpClearConfig m.session.args.ykp).2).1 = .fail

/-- The export gives no text, or the text is not written. -/
def BadOutput (fwrite : List Char → Bool) (m : MainState σ) : Prop :=
  ∃ buf n y, ykpExportConfig M.encoders M.jsonC m.cfg m.data 1024 m.session.args.dataFormat.code
      m.session.args.ykp = (.ok (buf, n), y) ∧
    (n = 0 ∨ ∃ text, CString.read buf = some text ∧ fwrite text = false)

variable {M} {m m' : MainState σ}

theorem dataText_cases (m : MainState σ) :
    CString.read m.data = none ∧ dataText m = (.fault, m) ∨
      ∃ text, CString.read m.data = some text ∧ dataText m = (.ok text, m) := by
  rw [dataText, Proc.get_bind_run]
  rcases CString.read m.data with _ | text
  · exact .inl ⟨rfl, rfl⟩
  · exact .inr ⟨text, rfl, rfl⟩

theorem fread_run (inf : Input) (m : MainState σ) :
    ∃ stdin, fread inf m = (.ok (inf.bytes m), { m with session.args.stdin := stdin }) := by
  cases inf with
  | stdin => exact ⟨_, rfl⟩
  | file contents => exact ⟨m.session.args.stdin, rfl⟩

/-- The log behind a step over the options, from what the step came to. -/
def logged (step : OptionStep) : Ret Unit × MainState σ → Ret Unit × MainState σ
  | (.ok _, t) => (.ok ⟨⟩, { t with acts := t.acts ++ [.step step true] })
  | (.fail, t) => (.fail, { t with acts := t.acts ++ [.step step false] })
  | r => r

/-- A step over the options that ends the run where it fails. -/
theorem optionStep_logged (step : OptionStep) (x : Proc (MainState σ) Unit) (m : MainState σ) :
    (do match ← optionStep step x with
        | some _ => pure ⟨⟩
        | none => Proc.fail : Proc (MainState σ) Unit) m = logged step (x m) := by
  have hstep : ∀ {r t}, Proc.attempt x m = (.ok r, t) → optionStep step x m
      = (.ok r, { t with acts := t.acts ++ [.step step r.isSome] }) := fun h => by
    rw [optionStep, Proc.bind_ok h]
    rfl
  rcases hx : x m with ⟨_ | _ | _ | _, t⟩
  · rw [Proc.bind_ok (hstep (Proc.attempt_ok hx))]
    rfl
  · rw [Proc.bind_ok (hstep (Proc.attempt_fail hx))]
    rfl
  · have hfault : optionStep step x m = (.fault, t) := Proc.bind_fault (Proc.attempt_fault hx)
    exact Proc.bind_fault hfault
  · have hdiverge : optionStep step x m = (.diverge, t) :=
      Proc.bind_diverge (Proc.attempt_diverge hx)
    exact Proc.bind_diverge hdiverge

theorem logged_fst (step : OptionStep) (r : Ret Unit × MainState σ) : (logged step r).1 = r.1 := by
  rcases r with ⟨_ | _ | _ | _, t⟩ <;> rfl

theorem logged_session (step : OptionStep) (r : Ret Unit × MainState σ) :
    (logged step r).2.session = r.2.session := by
  rcases r with ⟨_ | _ | _ | _, t⟩ <;> rfl

theorem optionStep_orFail (step : OptionStep) (x : Proc (MainState σ) Unit) (m : MainState σ) :
    ((do match ← optionStep step x with
        | some _ => pure ⟨⟩
        | none => Proc.fail : Proc (MainState σ) Unit) m).1 = (x m).1 := by
  rw [optionStep_logged, logged_fst]

/-- Where the import fails, and where it returns. -/
theorem importFile_end (inf : Option Input) (m : MainState σ) :
    ((importFile M inf m).1 = .fail → BadInput M m inf) ∧
      ((importFile M inf m).1 = .ok ⟨⟩ → ¬ BadInput M m inf) := by
  rcases inf with _ | inf
  · exact ⟨nofun, fun _ => id⟩
  have hclear : (onConfig ykpClearConfig : Proc (MainState σ) Unit) m
      = (.ok ⟨⟩, { m with session.args.ykp := (ykpClearConfig m.session.args.ykp).2 }) := rfl
  obtain ⟨stdin, hread⟩ := fread_run inf
    { m with session.args.ykp := (ykpClearConfig m.session.args.ykp).2 }
  have hbytes : inf.bytes { m with session.args.ykp := (ykpClearConfig m.session.args.ykp).2 }
      = inf.bytes m := by cases inf <;> rfl
  rw [hbytes] at hread
  rw [importFile, Proc.bind_ok hclear, Proc.bind_ok hread]
  by_cases h0 : inf.bytes m = []
  · rw [if_pos h0]
    exact ⟨fun _ => .inl h0, nofun⟩
  rw [if_neg h0, Proc.modify_bind_run]
  generalize hu : ({ m with
    session.args.ykp := (ykpClearConfig m.session.args.ykp).2
    session.args.stdin := stdin
    data := Buffer.store m.data 0 (inf.bytes m) } : MainState σ) = u
  rcases dataText_cases u with ⟨-, htext⟩ | ⟨text, -, htext⟩
  · rw [Proc.bind_fault htext]
    exact ⟨nofun, nofun⟩
  rw [Proc.bind_ok htext, Proc.get_bind_run]
  subst hu
  refine ⟨fun h => .inr ?_, fun h => ?_⟩
  · exact (optionStep_orFail (.importConfig text) _ _).symm.trans h
  · have himport := (optionStep_orFail (.importConfig text) _ _).symm.trans h
    rintro (h1 | h1)
    · exact h0 h1
    · cases himport.symm.trans h1

theorem exportData_ok {format : YkpFormat} {n : ℤ} (h : exportData M format m = (.ok n, m')) :
    ∃ y, ykpExportConfig M.encoders M.jsonC m.cfg m.data 1024 format.code m.session.args.ykp
      = (.ok (m'.data, n), y) := by
  rw [exportData, Proc.get_bind_run] at h
  obtain ⟨p, t, hp, h⟩ := Proc.bind_eq_ok.1 h
  rw [onConfig_run] at hp
  obtain ⟨h1, rfl⟩ := Prod.mk.inj h
  obtain rfl := Ret.ok.inj h1
  exact ⟨_, Proc.run_eq (Prod.mk.inj hp).1⟩

/-! ### The commit -/

/-- The console has nothing to answer, and `-y` is not given. -/
def NoAnswer (m : MainState σ) : Prop :=
  m.session.args.autocommit = false ∧ m.session.args.stdin = []

/-- The exit code and what the prompt reads from are as before. -/
structure SameConsole (m m' : MainState σ) : Prop where
  exitCode : m'.exitCode = m.exitCode
  autocommit : m'.session.args.autocommit = m.session.args.autocommit
  stdin : m'.session.args.stdin = m.session.args.stdin

theorem SameMain.sameConsole {m m' : MainState σ} (h : SameMain m m') : SameConsole m m' := by
  obtain ⟨ykp, stderr, hargs⟩ := h.args
  constructor
  · exact h.sameCode
  · rw [hargs]
  · rw [hargs]

theorem sameConsole_mainFrame : MainFrame (Alone (Moves (SameConsole (σ := σ)))) :=
  .of_moves (fun _ _ _ h k => ⟨k.exitCode.trans h.exitCode, k.autocommit.trans h.autocommit,
    k.stdin.trans h.stdin⟩) fun _ _ h => h.sameConsole

/-- What only looks at the state never fails. -/
theorem never_mainFrame : MainFrame (Alone (Proc.Fails fun _ : MainState σ => False)) where
  pure := .pure
  fault _ _ h := by cases (Prod.mk.inj h).1
  bind := .bind
  get_bind hf m := hf m m (.refl m) m
  printf _ _ _ h := by cases (Prod.mk.inj h).1
  stderr _ _ _ h := by cases (Prod.mk.inj h).1
  data _ _ _ h := by cases (Prod.mk.inj h).1
  looks hx := hx.onConfig

theorem exportFile_fail {fwrite : List Char → Bool} (h : exportFile M fwrite m = (.fail, m')) :
    BadOutput M fwrite m := by
  rw [exportFile, Proc.get_bind_run] at h
  rcases Proc.bind_eq_fail.1 h with h | ⟨n, t, ht, h⟩
  · exact (never_mainFrame.exportData M _ _ _ h).elim
  obtain ⟨y, hy⟩ := exportData_ok ht
  refine ⟨t.data, n, y, hy, ?_⟩
  split_ifs at h with h0
  · exact .inl h0
  rcases dataText_cases t with ⟨-, htext⟩ | ⟨text, hread, htext⟩
  · rw [Proc.bind_fault htext] at h
    cases (Prod.mk.inj h).1
  · rw [Proc.bind_ok htext] at h
    split_ifs at h with hw
    · cases (Prod.mk.inj h).1
    · exact .inr ⟨text, hread, Bool.eq_false_iff.2 hw⟩

theorem readAnswer_fail_iff (m : MainState σ) : (readAnswer m).1 = .fail ↔ NoAnswer m := by
  rw [readAnswer, Proc.get_bind_run, NoAnswer]
  cases m.session.args.autocommit with
  | true => exact iff_of_false nofun nofun
  | false =>
    rw [if_neg Bool.false_ne_true, fgets]
    by_cases h : m.session.args.stdin = []
    · simp only [if_pos h]
      exact iff_of_true rfl ⟨trivial, h⟩
    · simp only [if_neg h]
      exact iff_of_false nofun fun hn => h hn.2

theorem sameCode_confirmed : Moves SameCode (confirmed U) :=
  sameCode_fileFrame.confirmed (V := U) fun _ failure =>
    sameCode_fileFrame.program (V := U) (fun _ => rfl) (Moves.attempt fun _ => rfl) failure

variable (M) in
/-- A commit fails with an exit code, but where nothing answers its first question. -/
theorem commit_fail (h : commit U M m = (.fail, m')) (hm : m.exitCode = 0) :
    m'.exitCode = 0 ↔ NoAnswer m := by
  rcases Proc.bind_eq_fail.1 h with h | ⟨_, t, ht, h⟩
  · exact (never_mainFrame.announce M _ _ h).elim
  rcases Proc.bind_eq_fail.1 h with h | ⟨_, u, hu, h⟩
  · cases (Prod.mk.inj h).1
  have hconsole : SameConsole m u := by
    have hmt := (sameConsole_mainFrame.announce M).of_eq_ok ht
    have htu := (sameConsole_mainFrame.eprintf _).of_eq_ok hu
    exact ⟨htu.exitCode.trans hmt.exitCode, htu.autocommit.trans hmt.autocommit,
      htu.stdin.trans hmt.stdin⟩
  have hno : NoAnswer u ↔ NoAnswer m := by
    rw [NoAnswer, hconsole.autocommit, hconsole.stdin, NoAnswer]
  rw [← hno, ← readAnswer_fail_iff]
  rcases Proc.bind_eq_fail.1 h with h | ⟨answer, v, hv, h⟩
  · refine iff_of_true ?_ (congrArg Prod.fst h)
    have hsame : m'.exitCode = u.exitCode := by
      have := sameCode_fileFrame.readAnswer u
      rwa [h] at this
    rw [hsame, hconsole.exitCode, hm]
  · refine iff_of_false ?_ (by rw [hv]; nofun)
    split_ifs at h
    · -- behind the answer the exit code is 2
      rcases Proc.bind_eq_fail.1 h with h | ⟨_, w, hw, h⟩
      · cases (Prod.mk.inj h).1
      obtain rfl := (Prod.mk.inj hw).2
      have hcode : m'.exitCode = 2 := (congrArg MainState.exitCode (congrArg Prod.snd h)).symm.trans
        (sameCode_confirmed U { v with session.args.exitCode := 2 })
      rw [hcode]
      decide
    · cases (Prod.mk.inj h).1

/-! ### The run -/

variable (M) in
/-- The first head of the option loop of a run from `m`, with a key of this status. -/
def firstHead (m : MainState σ) (st : YkStatus) : ArgsState :=
  loopStart (M.argsEnv st) m.session.args.getopt.argv m.session.args.stdin m.session.args.scanBin
    m.session.args.deviceInfo

variable (M) in
/-- A run from `m` prints the help. -/
def PrintsHelp (keyIndex : ℤ) (m : MainState σ) : Prop :=
  ∃ st t, openKey U keyIndex m = (.ok st, t) ∧
    Meets (M.argsEnv st) (firstHead M m st) fun o _ => helps o = true

variable (M) in
/-- A run from `m` gets to a step that fails without an exit code: an option that is refused, an
input, an output or an answer. -/
inductive FailsSilently (fuel : ℕ) (keyIndex : ℤ) (m : MainState σ) : Prop
  | options {st t} (hopen : openKey U keyIndex m = (.ok st, t))
      (h : Meets (M.argsEnv st) (firstHead M m st) (Refused (M.argsEnv st)))
  | input {files v} (hprepare : prepare U M fuel keyIndex m = (.ok files, v))
      (h : BadInput M v files.1)
  | output {inf fwrite v u} (hprepare : prepare U M fuel keyIndex m = (.ok (inf, .file fwrite), v))
      (himport : importFile M inf v = (.ok ⟨⟩, u)) (h : BadOutput M fwrite u)
  | answer {inf v u} (hprepare : prepare U M fuel keyIndex m = (.ok (inf, .none), v))
      (himport : importFile M inf v = (.ok ⟨⟩, u)) (h : NoAnswer u)

end Program

section Runs

variable {σ : Type} {U : Usb σ} {M : MainEnv} {fuel : ℕ} {keyIndex : ℤ} {argv : List (List Char)}
  {stdin data : List Char} {scanCodes deviceInfo accessCode : List UInt8} {dev : σ}
  {m' : MainState σ}

/-- An accepted command line has met no option that fails without an exit code. -/
theorem argsToConfig_not_meets {E : ArgsEnv} {s' : ArgsState}
    (h : argsToConfig E fuel (.fresh argv stdin scanCodes deviceInfo) = (.ok ⟨⟩, s')) :
    ¬ Meets E (loopStart E argv stdin scanCodes deviceInfo)
      fun o u => helps o = true ∨ Refused E o u := by
  intro hm
  obtain ⟨fuel', t, hloop, -⟩ := loop_of_meets hm rfl
  rw [argsToConfig_eq] at h
  obtain ⟨_, u, hu, -⟩ := Proc.bind_eq_ok.1 h
  have heq : Turns.loop scanNext (handle E) fuel (loopStart E argv stdin scanCodes deviceInfo)
      = Turns.loop scanNext (handle E) fuel' (loopStart E argv stdin scanCodes deviceInfo) :=
    Turns.loop_eq_of_ends (by rw [hu]; nofun) (by rw [hloop]; nofun)
  rw [hu, hloop] at heq
  cases (Prod.mk.inj heq).1

variable (M fuel) in
theorem parseArguments_run (st : YkStatus) (m : MainState σ) :
    (parseArguments M st fuel m).1 = (argsToConfig (M.argsEnv st) fuel m.session.args).1 ∧
      (parseArguments M st fuel m).2.session.args
        = (argsToConfig (M.argsEnv st) fuel m.session.args).2 := by
  have hrun : parseArguments M st fuel m = logged .argsToConfig
      (onSession (onArgs (argsToConfig (M.argsEnv st) fuel)) m) := optionStep_logged _ _ m
  rw [hrun, logged_fst, logged_session]
  exact ⟨rfl, rfl⟩

/-- A run that gets to its files has an exit code of 0, and has met no option that fails without
one. -/
theorem prepare_keeps {files : Option Input × Output}
    (h : prepare U M fuel keyIndex (.start argv stdin scanCodes deviceInfo accessCode data dev)
      = (.ok files, m')) : m'.exitCode = 0 ∧ ∃ st t,
    openKey U keyIndex (.start argv stdin scanCodes deviceInfo accessCode data dev) = (.ok st, t) ∧
      ¬ Meets (M.argsEnv st) (loopStart (M.argsEnv st) argv stdin scanCodes deviceInfo)
        fun o u => helps o = true ∨ Refused (M.argsEnv st) o u := by
  obtain ⟨st, t, ht, h⟩ := Proc.bind_eq_ok.1 h
  obtain ⟨st', a, ha, ht⟩ := Proc.bind_eq_ok.1 ht
  obtain ⟨_, b, hb, ht⟩ := Proc.bind_eq_ok.1 ht
  obtain ⟨h1, rfl⟩ := Prod.mk.inj ht
  obtain rfl := Ret.ok.inj h1
  have hargs : a.session.args = .fresh argv stdin scanCodes deviceInfo := openKey_ok ha
  have hrun := parseArguments_run M fuel st' a
  rw [hb, hargs] at hrun
  have hok : argsToConfig (M.argsEnv st') fuel (.fresh argv stdin scanCodes deviceInfo)
      = (.ok ⟨⟩, b.session.args) := Prod.ext hrun.1.symm hrun.2.symm
  have hcode := (signals_afterOptions U M st').keeps _ _ _ h
  exact ⟨hcode.trans (argsToConfig_keeps hok), st', a, ha, argsToConfig_not_meets hok⟩

/-- Up to the files, a run fails without an exit code at its options only. -/
theorem prepare_fail
    (h : prepare U M fuel keyIndex (.start argv stdin scanCodes deviceInfo accessCode data dev)
      = (.fail, m')) : m'.exitCode = 0 ↔ ∃ st t,
    openKey U keyIndex (.start argv stdin scanCodes deviceInfo accessCode data dev) = (.ok st, t) ∧
      Meets (M.argsEnv st) (loopStart (M.argsEnv st) argv stdin scanCodes deviceInfo)
        fun o u => helps o = true ∨ Refused (M.argsEnv st) o u := by
  rcases Proc.bind_eq_fail.1 h with h | ⟨st, t, ht, h⟩
  · rcases Proc.bind_eq_fail.1 h with h | ⟨st, a, ha, h⟩
    · refine iff_of_false ((signals_openKey U keyIndex).loud _ _ h) ?_
      rintro ⟨st, t, ht, -⟩
      rw [h] at ht
      cases (Prod.mk.inj ht).1
    rcases Proc.bind_eq_fail.1 h with h | ⟨_, _, -, h⟩
    swap
    · cases (Prod.mk.inj h).1
    have hargs : a.session.args = .fresh argv stdin scanCodes deviceInfo := openKey_ok ha
    have hrun := parseArguments_run M fuel st a
    rw [h, hargs] at hrun
    have hfail : argsToConfig (M.argsEnv st) fuel (.fresh argv stdin scanCodes deviceInfo)
        = (.fail, m'.session.args) := Prod.ext hrun.1.symm hrun.2.symm
    refine (argsToConfig_exitCode hfail).trans ⟨fun hm => ⟨st, a, ha, hm⟩, ?_⟩
    rintro ⟨st', t, ht, hm⟩
    obtain rfl := Ret.ok.inj (Prod.mk.inj (ha.symm.trans ht)).1
    exact hm
  · -- behind the options, every step that fails sets the exit code
    refine iff_of_false ((signals_afterOptions U M st).loud _ _ h) ?_
    obtain ⟨st', a, ha, ht⟩ := Proc.bind_eq_ok.1 ht
    obtain ⟨_, b, hb, ht⟩ := Proc.bind_eq_ok.1 ht
    rintro ⟨st'', t', ht', hm⟩
    obtain rfl := Ret.ok.inj (Prod.mk.inj (ha.symm.trans ht')).1
    have hargs : a.session.args = .fresh argv stdin scanCodes deviceInfo := openKey_ok ha
    have hrun := parseArguments_run M fuel st' a
    rw [hb, hargs] at hrun
    exact argsToConfig_not_meets (Prod.ext hrun.1.symm hrun.2.symm) hm

/-- Behind the options, the steps that fail without an exit code are over the input, the output and
the first answer. -/
theorem files_fail {inf : Option Input} {v : MainState σ} (hv : v.exitCode = 0) :
    (∀ fwrite, (importFile M inf >>= fun _ => exportFile M fwrite >>= fun _ => setExitCode 0 >>=
        fun _ => pure (none : Option ℕ)) v = (.fail, m') →
      (m'.exitCode = 0 ↔ BadInput M v inf ∨
        ∃ u, importFile M inf v = (.ok ⟨⟩, u) ∧ BadOutput M fwrite u)) ∧
    ((importFile M inf >>= fun _ => commit U M >>= fun _ => setExitCode 0 >>=
        fun _ => pure (none : Option ℕ)) v = (.fail, m') →
      (m'.exitCode = 0 ↔ BadInput M v inf ∨
        ∃ u, importFile M inf v = (.ok ⟨⟩, u) ∧ NoAnswer u)) := by
  have hsame := sameCode_fileFrame.importFile M inf v
  have himport : importFile M inf v = (.fail, m') → m'.exitCode = 0 ∧ BadInput M v inf := by
    intro h
    rw [h] at hsame
    exact ⟨Eq.trans hsame hv, (importFile_end inf v).1 (congrArg Prod.fst h)⟩
  have hok : ∀ {u}, importFile M inf v = (.ok ⟨⟩, u) → u.exitCode = 0 ∧ ¬ BadInput M v inf :=
    fun h => by
      rw [h] at hsame
      exact ⟨Eq.trans hsame hv, (importFile_end inf v).2 (congrArg Prod.fst h)⟩
  constructor
  · intro fwrite h
    rcases Proc.bind_eq_fail.1 h with h | ⟨_, u, hu, h⟩
    · exact iff_of_true (himport h).1 (.inl (himport h).2)
    rcases Proc.bind_eq_fail.1 h with h | ⟨_, _, -, h⟩
    · have hcode := sameCode_fileFrame.exportFile M fwrite u
      rw [h] at hcode
      exact iff_of_true (Eq.trans hcode (hok hu).1) (.inr ⟨u, hu, exportFile_fail h⟩)
    · cases (Prod.mk.inj h).1
  · intro h
    rcases Proc.bind_eq_fail.1 h with h | ⟨_, u, hu, h⟩
    · exact iff_of_true (himport h).1 (.inl (himport h).2)
    rcases Proc.bind_eq_fail.1 h with h | ⟨_, _, -, h⟩
    · rw [commit_fail U M h (hok hu).1]
      refine ⟨fun hn => .inr ⟨u, hu, hn⟩, ?_⟩
      rintro (hbad | ⟨u', hu', hn⟩)
      · exact absurd hbad (hok hu).2
      · rwa [(Prod.mk.inj (hu.symm.trans hu')).2]
    · cases (Prod.mk.inj h).1

theorem personalize_fail
    (h : personalize U M fuel keyIndex (.start argv stdin scanCodes deviceInfo accessCode data dev)
      = (.fail, m')) : m'.exitCode = 0 ↔
    PrintsHelp U M keyIndex (.start argv stdin scanCodes deviceInfo accessCode data dev) ∨
      FailsSilently U M fuel keyIndex
        (.start argv stdin scanCodes deviceInfo accessCode data dev) := by
  rcases Proc.bind_eq_fail.1 h with hprep | ⟨⟨inf, outf⟩, v, hprep, h⟩
  · rw [prepare_fail hprep]
    constructor
    · rintro ⟨st, t, ht, os, u, o, w, hu, hn, hp | hp⟩
      · exact .inl ⟨st, t, ht, os, u, o, w, hu, hn, hp⟩
      · exact .inr (.options ht ⟨os, u, o, w, hu, hn, hp⟩)
    · rintro (⟨st, t, ht, os, u, o, w, hu, hn, hp⟩ | ⟨ht, os, u, o, w, hu, hn, hp⟩ | ⟨hv, -⟩ |
        ⟨hv, -, -⟩ | ⟨hv, -, -⟩)
      · exact ⟨st, t, ht, os, u, o, w, hu, hn, .inl hp⟩
      · exact ⟨_, _, ht, os, u, o, w, hu, hn, .inr hp⟩
      all_goals
        rw [hprep] at hv
        cases (Prod.mk.inj hv).1
  obtain ⟨hzero, st, t, ht, hmeets⟩ := prepare_keeps hprep
  -- the options are behind the run
  have hoptions : ∀ {P : Prop}, (∃ st t, openKey U keyIndex
      (.start argv stdin scanCodes deviceInfo accessCode data dev) = (.ok st, t) ∧
      Meets (M.argsEnv st) (loopStart (M.argsEnv st) argv stdin scanCodes deviceInfo)
        fun o u => helps o = true ∨ Refused (M.argsEnv st) o u) → P := by
    rintro P ⟨st', t', ht', hm⟩
    obtain rfl := Ret.ok.inj (Prod.mk.inj (ht.symm.trans ht')).1
    exact absurd hm hmeets
  have hhelp : ¬ PrintsHelp U M keyIndex
      (.start argv stdin scanCodes deviceInfo accessCode data dev) := by
    rintro ⟨st, t, ht, os, u, o, w, hu, hn, hp⟩
    exact hoptions ⟨st, t, ht, os, u, o, w, hu, hn, .inl hp⟩
  rw [or_iff_right hhelp]
  rcases outf with _ | fwrite | code
  · rw [(files_fail (U := U) hzero).2 h]
    constructor
    · rintro (hbad | ⟨u, hu, hn⟩)
      · exact .input hprep hbad
      · exact .answer hprep hu hn
    · rintro (⟨ht, os, u, o, w, hu, hn, hp⟩ | ⟨hv, hbad⟩ | ⟨hv, -, -⟩ | ⟨hv, hu, hn⟩)
      · exact hoptions ⟨_, _, ht, os, u, o, w, hu, hn, .inr hp⟩
      all_goals
        obtain ⟨h1, rfl⟩ := Prod.mk.inj (hprep.symm.trans hv)
        cases h1
      · exact .inl hbad
      · exact .inr ⟨_, hu, hn⟩
  · rw [(files_fail (U := U) hzero).1 fwrite h]
    constructor
    · rintro (hbad | ⟨u, hu, hbad⟩)
      · exact .input hprep hbad
      · exact .output hprep hu hbad
    · rintro (⟨ht, os, u, o, w, hu, hn, hp⟩ | ⟨hv, hbad⟩ | ⟨hv, hu, hbad⟩ | ⟨hv, -, -⟩)
      · exact hoptions ⟨_, _, ht, os, u, o, w, hu, hn, .inr hp⟩
      all_goals
        obtain ⟨h1, rfl⟩ := Prod.mk.inj (hprep.symm.trans hv)
        cases h1
      · exact .inl hbad
      · exact .inr ⟨_, hu, hbad⟩
  · cases (Prod.mk.inj h).1

end Runs

/-! ### Leaving -/

section Leave

variable {σ : Type} (U : Usb σ)

/-- The key cannot be closed, or the bus cannot be let go. -/
def EndFails (m : MainState σ) : Prop :=
  (m.keyOpen = true ∧ ∃ e, (U.ykusbCloseDevice m.session.world.dev).1 = .error e) ∨
    ∃ e, (U.ykusbStop (if m.keyOpen then (U.ykusbCloseDevice m.session.world.dev).2
      else m.session.world.dev)).1 = .error e

theorem orReport_run (f : σ → Except (Option YkErr) Unit × σ) (m : MainState σ) :
    ∃ m', orReport f m = (.ok ⟨⟩, m') ∧ m'.session.world.dev = (f m.session.world.dev).2 ∧
      (m'.exitCode = 0 ↔ m.exitCode = 0 ∧ ¬ ∃ e, (f m.session.world.dev).1 = .error e) := by
  rcases hf : f m.session.world.dev with ⟨e | _, d⟩
  · have hcall : busCall f m.session.world = (.fail, { m.session.world with
        dev := d, ykErrno := e <|> m.session.world.ykErrno }) := by
      rw [busCall, hf]
    have hrun : onSession (onKey (busCall f)) m = (.fail, _) :=
      congrArg (fun p => (p.1, { m with session.world := p.2 })) hcall
    rw [orReport, Proc.bind_ok (Proc.attempt_fail hrun)]
    exact ⟨_, rfl, rfl, iff_of_false (Nat.succ_ne_zero 1) fun h => h.2 ⟨_, rfl⟩⟩
  · have hcall : busCall f m.session.world = (.ok ⟨⟩, { m.session.world with dev := d }) := by
      rw [busCall, hf]
    have hrun : onSession (onKey (busCall f)) m = (.ok ⟨⟩, _) :=
      congrArg (fun p => (p.1, { m with session.world := p.2 })) hcall
    rw [orReport, Proc.bind_ok (Proc.attempt_ok hrun)]
    have hnone : ¬ ∃ e, (Except.ok () : Except (Option YkErr) Unit) = .error e := by
      rintro ⟨e, he⟩
      cases he
    exact ⟨_, rfl, rfl, ⟨fun h => ⟨h, hnone⟩, fun h => h.1⟩⟩

theorem leave_exitCode (error : Bool) {m m' : MainState σ} {code : ℕ}
    (h : leave U error m = (.ok code, m')) : code = 0 ↔ m.exitCode = 0 ∧ ¬ EndFails U m := by
  obtain ⟨_, a, ha, h⟩ := Proc.bind_eq_ok.1 h
  have hreport : a.exitCode = m.exitCode ∧ a.keyOpen = m.keyOpen ∧
      a.session.world.dev = m.session.world.dev := by
    cases error <;> obtain rfl := (Prod.mk.inj ha).2 <;> exact ⟨rfl, rfl, rfl⟩
  obtain ⟨_, b, hb, h⟩ := Proc.bind_eq_ok.1 h
  rw [closeKey, Proc.get_bind_run] at hb
  obtain ⟨c, hc, -, hcode⟩ := orReport_run U.ykusbStop b
  rw [Proc.bind_ok hc, Proc.get_bind_run] at h
  obtain rfl := Ret.ok.inj (Prod.mk.inj h).1
  show c.exitCode = 0 ↔ _
  rw [hcode, EndFails, ← hreport.1, ← hreport.2.1, ← hreport.2.2]
  cases ho : a.keyOpen <;> rw [ho] at hb
  · obtain rfl := (Prod.mk.inj hb).2
    simp
  · obtain ⟨d, hd, hclosedDev, hclosed⟩ := orReport_run U.ykusbCloseDevice a
    obtain rfl := (Prod.mk.inj (hd.symm.trans hb)).2
    rw [hclosed, hclosedDev]
    simp [and_assoc]

end Leave

section Result

variable {σ : Type}

/-- A run that fails has an exit code other than 0 exactly where it gets to no step that fails
without one, or the key cannot be closed. For the options alone, such steps are the help and the
commands that the firmware refuses. -/
theorem exitCode_ne_zero_iff (U : Usb σ) (M : MainEnv) (argv : List (List Char))
    (stdin : List Char) (scanCodes deviceInfo accessCode : List UInt8) (data : List Char)
    (dev : σ) :
    (∀ E, (∀ fuel s', argsToConfig E fuel (.fresh argv stdin scanCodes deviceInfo) = (.fail, s') →
        s'.exitCode ≠ 0) ↔
      ¬ Meets E (loopStart E argv stdin scanCodes deviceInfo)
        fun o u => helps o = true ∨ Refused E o u) ∧
    ∀ fuel keyIndex m₁ code m', prescan M fuel (Getopt.start argv) 0 = some (.goOn keyIndex) →
      personalize U M fuel keyIndex (.start argv stdin scanCodes deviceInfo accessCode data dev)
        = (.fail, m₁) →
      ¬ PrintsHelp U M keyIndex (.start argv stdin scanCodes deviceInfo accessCode data dev) →
      ykpersonalize U M fuel (.start argv stdin scanCodes deviceInfo accessCode data dev)
        = (.ok code, m') →
      (code ≠ 0 ↔ ¬ FailsSilently U M fuel keyIndex
        (.start argv stdin scanCodes deviceInfo accessCode data dev) ∨ EndFails U m₁) := by
  refine ⟨fun E => ⟨fun h hm => ?_, fun hm fuel s' h hcode => ?_⟩, ?_⟩
  · obtain ⟨fuel, s', hrun, hcode⟩ := argsToConfig_of_meets hm
    exact h fuel s' hrun hcode
  · exact hm ((argsToConfig_exitCode h).1 hcode)
  · intro fuel keyIndex m₁ code m' hscan hfail hhelp hrun
    rw [ykpersonalize, Proc.get_bind_run] at hrun
    have hgetopt : (MainState.start argv stdin scanCodes deviceInfo accessCode data
        dev).session.args.getopt = Getopt.start argv := rfl
    rw [hgetopt, hscan] at hrun
    dsimp only at hrun
    rw [Proc.bind_ok (Proc.attempt_fail hfail)] at hrun
    have hcode := leave_exitCode U true hrun
    rw [personalize_fail hfail, or_iff_right hhelp] at hcode
    rw [ne_eq, hcode, not_and_or, not_not]

end Result

/-- A key of version 1.3 has no second slot, and one of version 4.3 takes no device information; the
exit code is 0. So it is where nothing answers the prompt. -/
theorem exitCode_zero_on_failure :
    ((argsToConfig (ScriptedHost.env 1 3 0) 10 (ScriptedHost.start ["ykpersonalize", "-2"])).1
        = .fail ∧
      (argsToConfig (ScriptedHost.env 1 3 0) 10
        (ScriptedHost.start ["ykpersonalize", "-2"])).2.exitCode = 0) ∧
    ((personalize ScriptedMain.usb (ScriptedMain.env [] []) 20 0
        (ScriptedMain.start ["ykpersonalize", "-D0102"] "" [])).1 = .fail ∧
      (ykpersonalize ScriptedMain.usb (ScriptedMain.env [] []) 20
        (ScriptedMain.start ["ykpersonalize", "-D0102"] "" [])).1 = .ok 0) ∧
    (personalize ScriptedMain.usb (ScriptedMain.env [] []) 20 0
        (ScriptedMain.start ["ykpersonalize", "-x"] "" [])).1 = .fail ∧
      (ykpersonalize ScriptedMain.usb (ScriptedMain.env [] []) 20
        (ScriptedMain.start ["ykpersonalize", "-x"] "" [])).1 = .ok 0 := by
  decide +kernel

end YkPers
