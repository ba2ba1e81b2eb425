import YkPers.Proofs.Frame
import YkPers.Proofs.MainFrame

/-!
# What a run of the program does

Whatever happens on the way to the commit, nothing that is logged programs the key (`Grows`). The
commit logs the answers it reads, and a call that programs the key only behind those that allow it
(`commit_outcome`). So a run that programs the key has gone through `prepare`, the import and the
commit, in this order, and logs nothing but reports of errors behind the call
(`ykpersonalize_outcome`).
-/

namespace YkPers

open Proc (Alone Moves attempt)

section Relations

variable {σ : Type}

def Act.isProgram : Act → Bool
  | .program _ => true
  | _ => false

/-- What has been logged since satisfies `P`. -/
def Logs (P : Act → Prop) (m m' : MainState σ) : Prop :=
  ∃ as, m'.acts = m.acts ++ as ∧ ∀ a ∈ as, P a

/-- What has been logged since does not program the key. -/
def Grows : MainState σ → MainState σ → Prop := Logs fun a => a.isProgram = false

/-- What is asked about before a key is written. -/
structure SameGates (s s' : ArgsState) : Prop where
  dryRun : s'.dryRun = s.dryRun
  autocommit : s'.autocommit = s.autocommit
  outfname : s'.outfname = s.outfname

/-- Nothing has been logged, and the configuration and the strings are as before. -/
structure Silent (m m' : MainState σ) : Prop where
  acts : m'.acts = m.acts
  cfg : m'.cfg = m.cfg
  gates : SameGates m.session.args m'.session.args
  texts : SameTexts m.session.args m'.session.args

variable {P Q : Act → Prop} {a b c : MainState σ}

theorem Logs.of_acts (h : b.acts = a.acts) : Logs P a b := ⟨[], by simp [h]⟩

theorem Logs.refl (a : MainState σ) : Logs P a a := .of_acts rfl

theorem Logs.trans (h : Logs P a b) (k : Logs P b c) : Logs P a c := by
  obtain ⟨as, ha, hp⟩ := h
  obtain ⟨bs, hb, hq⟩ := k
  refine ⟨as ++ bs, by rw [hb, ha, List.append_assoc], fun x hx => ?_⟩
  exact (List.mem_append.1 hx).elim (hp x) (hq x)

theorem Logs.mono (hpq : ∀ x, P x → Q x) (h : Logs P a b) : Logs Q a b := by
  obtain ⟨as, ha, hp⟩ := h
  exact ⟨as, ha, fun x hx => hpq x (hp x hx)⟩

theorem Logs.mem_of_mem (h : Logs P a b) {x : Act} (hx : x ∈ a.acts) : x ∈ b.acts := by
  obtain ⟨as, hb, -⟩ := h
  rw [hb]
  exact List.mem_append_left as hx

theorem Logs.mem_or (h : Logs P a b) {x : Act} (hx : x ∈ b.acts) : x ∈ a.acts ∨ P x := by
  obtain ⟨as, hb, hp⟩ := h
  rw [hb] at hx
  exact (List.mem_append.1 hx).imp_right (hp x)

theorem Logs.single {x : Act} (hx : P x) (h : b.acts = a.acts ++ [x]) : Logs P a b :=
  ⟨[x], h, by simpa using hx⟩

theorem Grows.none (h : Grows a b) (ha : a.acts = []) : ∀ x ∈ b.acts, x.isProgram = false := by
  intro x hx
  refine (h.mem_or hx).resolve_left fun h0 => ?_
  rw [ha] at h0
  cases h0

theorem SameGates.refl (s : ArgsState) : SameGates s s := ⟨rfl, rfl, rfl⟩

theorem SameGates.trans {r s t : ArgsState} (h : SameGates r s) (k : SameGates s t) :
    SameGates r t :=
  ⟨k.dryRun.trans h.dryRun, k.autocommit.trans h.autocommit, k.outfname.trans h.outfname⟩

theorem SameTexts.refl (s : ArgsState) : SameTexts s s := ⟨rfl, rfl, rfl, rfl, rfl⟩

theorem SameTexts.trans {r s t : ArgsState} (h : SameTexts r s) (k : SameTexts s t) :
    SameTexts r t where
  ndefType := k.ndefType.trans h.ndefType
  ndef := k.ndef.trans h.ndef
  accessCode := k.accessCode.trans h.accessCode
  newAccessCode := k.newAccessCode.trans h.newAccessCode
  oathid := k.oathid.trans h.oathid

theorem Silent.refl (m : MainState σ) : Silent m m := ⟨rfl, rfl, .refl _, .refl _⟩

theorem Silent.trans (h : Silent a b) (k : Silent b c) : Silent a c :=
  ⟨k.acts.trans h.acts, k.cfg.trans h.cfg, h.gates.trans k.gates, h.texts.trans k.texts⟩

end Relations

section Steps

variable {σ α β : Type}

theorem silent_pure (a : α) : Moves Silent (pure a : Proc (MainState σ) α) := .pure Silent.refl a

theorem silent_fail : Moves Silent (Proc.fail : Proc (MainState σ) α) := .fail Silent.refl

theorem silent_bind {x : Proc (MainState σ) α} {f : α → Proc (MainState σ) β}
    (hx : Moves Silent x) (hf : ∀ a, Moves Silent (f a)) : Moves Silent (x >>= f) :=
  .bind (fun _ _ _ h k => h.trans k) hx hf

/-- The console and the exit code are no part of the view. -/
theorem silent_args {f : ArgsState → ArgsState} (h : ∀ s, (f s).ykp.cfg = s.ykp.cfg)
    (hf : ∀ s, SameGates s (f s)) (ht : ∀ s, SameTexts s (f s)) :
    Moves Silent (onSession (onArgs (Proc.modify f)) : Proc (MainState σ) PUnit) := fun m =>
  ⟨rfl, h m.session.args, hf m.session.args, ht m.session.args⟩

theorem silent_onKey (x : Yk σ α) : Moves Silent (onSession (onKey x)) := fun _ =>
  ⟨rfl, rfl, .refl _, .refl _⟩

theorem silent_setExitCode (code : ℕ) :
    Moves Silent (setExitCode code : Proc (MainState σ) Unit) :=
  silent_args (fun _ => rfl) (fun _ => ⟨rfl, rfl, rfl⟩) fun _ => ⟨rfl, rfl, rfl, rfl, rfl⟩

theorem SameMain.silent {m m' : MainState σ} (h : SameMain m m') : Silent m m' := by
  obtain ⟨ykp, stderr, hargs⟩ := h.args
  refine ⟨h.acts, h.cfg, ?_, ?_⟩ <;> rw [hargs]
  · exact ⟨rfl, rfl, rfl⟩
  · exact ⟨rfl, rfl, rfl, rfl, rfl⟩

theorem silent_errFrame : ErrFrame (Alone (Moves (Silent (σ := σ)))) where
  toMainFrame := .of_moves (fun _ _ _ h k => h.trans k) fun _ _ h => h.silent
  errOne := silent_bind (silent_setExitCode 1) fun _ => silent_fail

theorem silent_failFrame : FailFrame (Alone (Moves (Silent (σ := σ)))) where
  toMainFrame := silent_errFrame.toMainFrame
  fail := silent_fail
  stdin _ := silent_args (fun _ => rfl) (fun _ => ⟨rfl, rfl, rfl⟩)
    fun _ => ⟨rfl, rfl, rfl, rfl, rfl⟩
  attemptSame hx := Moves.attempt fun m =>
    ⟨rfl, hx m.session.args.ykp, ⟨rfl, rfl, rfl⟩, rfl, rfl, rfl, rfl, rfl⟩

theorem Silent.grows {m m' : MainState σ} (h : Silent m m') : Grows m m' := .of_acts h.acts

theorem grows_silent {x : Proc (MainState σ) α} (h : Moves Silent x) : Moves Grows x :=
  fun m => (h m).grows

theorem logs_bind {P : Act → Prop} {x : Proc (MainState σ) α} {f : α → Proc (MainState σ) β}
    (hx : Moves (Logs P) x) (hf : ∀ a, Moves (Logs P) (f a)) : Moves (Logs P) (x >>= f) :=
  .bind (fun _ _ _ h k => h.trans k) hx hf

theorem grows_bind {x : Proc (MainState σ) α} {f : α → Proc (MainState σ) β}
    (hx : Moves Grows x) (hf : ∀ a, Moves Grows (f a)) : Moves Grows (x >>= f) :=
  logs_bind hx hf

theorem logs_mainFrame (P : Act → Prop) : MainFrame (Alone (Moves (Logs (σ := σ) P))) :=
  .of_moves (fun _ _ _ h k => h.trans k) fun _ _ h => .of_acts h.acts

/-- All but the calls that program the key. -/
theorem grows_runFrame : RunFrame (Alone (Moves (Grows (σ := σ)))) where
  toMainFrame := logs_mainFrame _
  errOne _ := .of_acts rfl
  step _ _ _ := .single rfl rfl
  answer _ _ := .single rfl rfl
  config _ _ := .of_acts rfl
  attemptConfig _ := Moves.attempt fun _ => .of_acts rfl
  attemptSame _ := Moves.attempt fun _ => .of_acts rfl
  accessCode _ _ := .of_acts rfl
  fail _ := .of_acts rfl
  stdin _ _ := .of_acts rfl

theorem optionStep_ok {step : OptionStep} {x : Proc (MainState σ) α} {r : Option α}
    {m m' : MainState σ} (h : optionStep step x m = (.ok r, m')) : ∃ t, attempt x m = (.ok r, t) ∧
      m' = { t with acts := t.acts ++ [.step step r.isSome] } := by
  obtain ⟨r', t, ht, h⟩ := Proc.bind_eq_ok.1 h
  rw [logAct, Proc.modify_bind_run] at h
  obtain ⟨h1, h2⟩ := Prod.mk.inj h
  obtain rfl := Ret.ok.inj h1
  exact ⟨t, ht, h2.symm⟩

end Steps

/-! ## The commit -/

section Commit

variable {σ α β : Type} (U : Usb σ) (M : MainEnv)

/-- How often the commit asks before a call. -/
def Programming.prompts : Programming → ℕ
  | .deviceConfig d => if disablesOtp d.mode then 2 else 1
  | _ => 1

/-- The console has been asked `n` times, or with `-y` not at all, and every answer agreed. -/
def Consented (autocommit : Bool) (n : ℕ) (answers : List (List Char)) : Prop :=
  if autocommit then answers = [] else answers.length = n ∧ ∀ a ∈ answers, agrees a = true

/-- Since `m`, nothing has been logged but the answers to `n` questions. -/
structure Prompted (n : ℕ) (m m' : MainState σ) : Prop where
  answers : ∃ answers, m'.acts = m.acts ++ answers.map .answer ∧
    Consented m.session.args.autocommit n answers
  cfg : m'.cfg = m.cfg
  gates : SameGates m.session.args m'.session.args
  texts : SameTexts m.session.args m'.session.args

/-- What `ykp_construct_ndef_uri` or `ykp_construct_ndef_text` makes of the strings. -/
structure BuildsRecord (s : ArgsState) (record : YkNdef) : Prop where
  accessCode : s.accessCode = none
  built : ∃ y y' : YkpState,
    (s.ndefType = some 'U' ∧ ykpConstructNdefUri ykpAllocNdef s.ndef y = (.ok record, y')) ∨
    (s.ndefType = some 'T' ∧
      ykpConstructNdefText ykpAllocNdef s.ndef "en".toList false y = (.ok record, y'))

/-- A configuration that is written to a slot is the one of the state, and so are the command and
the strings of a record. -/
structure Programming.Fits (call : Programming) (m : MainState σ) : Prop where
  command : ∀ c command accCode, call = .command (some c) command accCode →
    c = m.cfg.ykcoreConfig ∧ command = m.cfg.command
  ndef : ∀ record confnum, call = .ndef record confnum → BuildsRecord m.session.args record

/-- `call` has been made behind the answers that it needs, and is the last entry of the log. -/
structure Programmed (m m' : MainState σ) (answers : List (List Char)) (call : Programming) :
    Prop where
  acts : m'.acts = m.acts ++ answers.map .answer ++ [.program call]
  dryRun : m.session.args.dryRun = false
  consented : Consented m.session.args.autocommit call.prompts answers
  fits : call.Fits m

def Outcome (m m' : MainState σ) : Prop :=
  Grows m m' ∨ ∃ answers call, Programmed m m' answers call

theorem buildsRecord_congr {s s' : ArgsState} (h : SameTexts s s') (record : YkNdef) :
    BuildsRecord s' record ↔ BuildsRecord s record := by
  constructor
  · rintro ⟨hcode, hbuilt⟩
    rw [h.accessCode] at hcode
    rw [h.ndefType, h.ndef] at hbuilt
    exact ⟨hcode, hbuilt⟩
  · rintro ⟨hcode, hbuilt⟩
    rw [← h.accessCode] at hcode
    rw [← h.ndefType, ← h.ndef] at hbuilt
    exact ⟨hcode, hbuilt⟩

theorem BuildsRecord.of_construct {s : ArgsState} {record : YkNdef} {t u : MainState σ}
    (hcode : s.accessCode = none) (h : constructNdef s t = (.ok record, u)) :
    BuildsRecord s record := by
  obtain ⟨r, v, hv, h⟩ := Proc.bind_eq_ok.1 h
  rcases r with _ | ndef
  · obtain ⟨_, _, -, h⟩ := Proc.bind_eq_ok.1 h
    cases (Prod.mk.inj h).1
  obtain ⟨h1, rfl⟩ := Prod.mk.inj h
  obtain rfl := Ret.ok.inj h1
  have hrun := congrArg Prod.fst (Proc.of_attempt_ok hv)
  refine ⟨hcode, t.session.args.ykp, ?_⟩
  by_cases hu : s.ndefType = some 'U'
  · rw [if_pos hu] at hrun
    exact ⟨_, .inl ⟨hu, Proc.run_eq hrun⟩⟩
  rw [if_neg hu] at hrun
  by_cases ht : s.ndefType = some 'T'
  · rw [if_pos ht] at hrun
    exact ⟨_, .inr ⟨ht, Proc.run_eq hrun⟩⟩
  · rw [if_neg ht] at hrun
    cases hrun

theorem Silent.prompted {m m' : MainState σ} (h : Silent m m') : Prompted 0 m m' where
  answers := ⟨[], by simp [h.acts], by simp [Consented]⟩
  cfg := h.cfg
  gates := h.gates
  texts := h.texts

theorem Prompted.trans {n k : ℕ} {a b c : MainState σ} (h : Prompted n a b) (h' : Prompted k b c) :
    Prompted (n + k) a c := by
  obtain ⟨xs, hx, hcx⟩ := h.answers
  obtain ⟨ys, hy, hcy⟩ := h'.answers
  refine ⟨⟨xs ++ ys, by simp [hx, hy], ?_⟩, h'.cfg.trans h.cfg, h.gates.trans h'.gates,
    h.texts.trans h'.texts⟩
  rw [h.gates.autocommit] at hcy
  unfold Consented at *
  split_ifs at * with ha
  · rw [hcx, hcy, List.append_nil]
  · refine ⟨by rw [List.length_append, hcx.1, hcy.1], fun x hx => ?_⟩
    exact (List.mem_append.1 hx).elim (hcx.2 x) (hcy.2 x)

theorem Prompted.grows {n : ℕ} {m m' : MainState σ} (h : Prompted n m m') : Grows m m' := by
  obtain ⟨answers, hacts, -⟩ := h.answers
  refine ⟨_, hacts, fun a ha => ?_⟩
  obtain ⟨line, -, rfl⟩ := List.mem_map.1 ha
  rfl

theorem Outcome.silent {a b c : MainState σ} (h : Outcome a b) (k : Silent b c) : Outcome a c := by
  rcases h with h | ⟨answers, call, h⟩
  · exact .inl (h.trans k.grows)
  · exact .inr ⟨answers, call, k.acts.trans h.acts, h.dryRun, h.consented, h.fits⟩

/-- The state behind a part that logs nothing. -/
theorem outcome_bind {n : ℕ} {m t : MainState σ} {x : Proc (MainState σ) α}
    {f : α → Proc (MainState σ) β} (h : Prompted n m t) (hx : Moves Silent x)
    (hf : ∀ a u, x t = (.ok a, u) → Prompted n m u → Outcome m (f a u).2) :
    Outcome m ((x >>= f) t).2 := by
  have hask : Prompted n m (x t).2 := h.trans (hx t).prompted
  refine Proc.bind_state (P := Outcome m) (fun a u hu => hf a u hu ?_) fun _ => .inl hask.grows
  rwa [hu] at hask

/-- What comes behind logs nothing. -/
theorem outcome_before {m t : MainState σ} {x : Proc (MainState σ) α}
    {f : α → Proc (MainState σ) β} (hx : Outcome m (x t).2) (hf : ∀ a, Moves Silent (f a)) :
    Outcome m ((x >>= f) t).2 := by
  refine Proc.bind_state (P := Outcome m) (fun a u hu => ?_) fun _ => hx
  rw [hu] at hx
  exact hx.silent (hf a u)

/-! ### Questions -/

theorem readAnswer_ok {m m' : MainState σ} {answer : List Char}
    (h : readAnswer m = (.ok answer, m')) (ha : agrees answer = true) : Prompted 1 m m' := by
  unfold readAnswer at h
  rw [Proc.get_bind_run] at h
  by_cases hy : m.session.args.autocommit = true
  · rw [if_pos hy] at h
    obtain ⟨_, t, ht, h⟩ := Proc.bind_eq_ok.1 h
    obtain rfl := (Prod.mk.inj h).2
    have hs := Moves.of_eq_ok (silent_errFrame.printf "yes\n") ht
    exact ⟨⟨[], by simp [hs.acts], by simp [Consented, hy]⟩, hs.cfg, hs.gates, hs.texts⟩
  · rw [if_neg hy] at h
    rcases hg : fgets 256 m.session.args.stdin with _ | ⟨line, rest⟩ <;> rw [hg] at h
    · obtain ⟨_, _, _, h⟩ := Proc.bind_eq_ok.1 h
      cases (Prod.mk.inj h).1
    · obtain ⟨_, t, ht, h⟩ := Proc.bind_eq_ok.1 h
      obtain ⟨h1, rfl⟩ := Prod.mk.inj h
      obtain rfl := Ret.ok.inj h1
      have hs := Moves.of_eq_ok (silent_failFrame.stdin fun _ => rest) ht
      refine ⟨⟨[_], by rw [← hs.acts]; rfl, ?_⟩, hs.cfg, hs.gates, hs.texts⟩
      simpa [Consented, hy] using ha

theorem outcome_question {n : ℕ} {m t : MainState σ} {f : List Char → Proc (MainState σ) β}
    (h : Prompted n m t)
    (hyes : ∀ a u, agrees a = true → Prompted (n + 1) m u → Outcome m (f a u).2)
    (hno : ∀ a, agrees a = false → Moves Silent (f a)) :
    Outcome m ((readAnswer >>= f) t).2 := by
  have hgrows : Grows m (readAnswer t).2 := h.grows.trans (grows_runFrame.readAnswer t)
  refine Proc.bind_state (P := Outcome m) (fun a u hu => ?_) fun _ => .inl hgrows
  rw [hu] at hgrows
  rcases ha : agrees a with _ | _
  · exact .inl (hgrows.trans (hno a ha u).grows)
  · exact hyes a u ha (h.trans (readAnswer_ok hu ha))

/-! ### Calls -/

theorem program_acts (call : Programming) (failure : String) (m : MainState σ) :
    (program U call failure m).2.acts = m.acts ++ [.program call] := by
  refine (silent_bind (silent_onKey _).attempt ?_
    { m with acts := m.acts ++ [.program call] }).acts
  rintro (_ | _)
  · exact .get_bind fun _ => silent_bind (silent_errFrame.printIf _ _) fun _ => silent_fail
  · exact silent_pure _

theorem outcome_program {m t : MainState σ} {call : Programming} (failure : String)
    (h : Prompted call.prompts m t) (hd : m.session.args.dryRun = false) (hfits : call.Fits t) :
    Outcome m (program U call failure t).2 := by
  obtain ⟨answers, hacts, hans⟩ := h.answers
  refine .inr ⟨answers, call, by rw [program_acts, hacts], hd, hans, ?_, ?_⟩
  · intro c command accCode hc
    rw [← h.cfg]
    exact hfits.command c command accCode hc
  · intro record confnum hc
    exact (buildsRecord_congr h.texts record).1 (hfits.ndef record confnum hc)

/-- A call that writes neither a configuration to a slot nor a record. -/
theorem Programming.fits_of_ne {call : Programming} (m : MainState σ)
    (h : ∀ c command accCode, call ≠ .command c command accCode)
    (hndef : ∀ record confnum, call ≠ .ndef record confnum) : call.Fits m :=
  ⟨fun c command accCode hc => absurd hc (h (some c) command accCode),
    fun record confnum hc => absurd hc (hndef record confnum)⟩

theorem deviceConfigOf_mode (s : ArgsState) : (deviceConfigOf s).mode = s.usbMode := by
  unfold deviceConfigOf
  dsimp only
  split_ifs <;> rfl

section Calls

variable {m t : MainState σ} (hd : m.session.args.dryRun = false) (h : Prompted 1 m t)
include hd h

theorem writeNdef_outcome : Outcome m (writeNdef U t.session.args t).2 := by
  have hsilent : Moves Silent (constructNdef t.session.args : Proc (MainState σ) _) :=
    silent_failFrame.constructNdef _
  refine outcome_bind h hsilent fun ndef u hu h => ?_
  rw [Proc.get_bind_run]
  rcases hcode : t.session.args.accessCode with _ | code
  · have hbuilds := (buildsRecord_congr (hsilent.of_eq_ok hu).texts ndef).2
      (.of_construct hcode hu)
    refine outcome_program U _ h hd ⟨by simp, fun record confnum hc => ?_⟩
    obtain rfl := (Programming.ndef.inj hc).1
    exact hbuilds
  · exact outcome_bind h (silent_errFrame.printIf _ _) fun _ _ _ h => .inl h.grows

theorem writeDeviceConfig_outcome (s : ArgsState) : Outcome m (writeDeviceConfig U s t).2 := by
  have hfits : ∀ u : MainState σ, (Programming.deviceConfig (deviceConfigOf s)).Fits u :=
    fun u => Programming.fits_of_ne u (by simp) (by simp)
  unfold writeDeviceConfig
  by_cases hotp : disablesOtp s.usbMode = true
  · rw [if_pos hotp]
    refine outcome_bind h (silent_errFrame.eprintf _) fun _ u _ h => ?_
    refine outcome_question h (fun a v ha h => ?_) fun a ha => ?_
    · rw [if_pos ha]
      refine outcome_before (outcome_program U _ ?_ hd (hfits v)) fun _ => silent_pure _
      simpa [Programming.prompts, deviceConfigOf_mode, hotp] using h
    · rw [if_neg (by simp [ha])]
      exact silent_pure _
  · rw [if_neg hotp]
    refine outcome_before (outcome_program U _ ?_ hd (hfits t)) fun _ => silent_pure _
    simpa [Programming.prompts, deviceConfigOf_mode, hotp] using h

theorem writeKey_outcome : Outcome m (writeKey U t).2 := by
  unfold writeKey
  rw [Proc.get_bind_run]
  split_ifs
  · exact outcome_before (writeNdef_outcome U hd h) fun _ => silent_pure _
  · exact writeDeviceConfig_outcome U hd h _
  · exact outcome_before (outcome_program U _ h hd (Programming.fits_of_ne _ (by simp) (by simp)))
      fun _ => silent_pure _
  · exact outcome_before (outcome_program U _ h hd (Programming.fits_of_ne _ (by simp) (by simp)))
      fun _ => silent_pure _
  · refine outcome_before (outcome_program U _ h hd ⟨?_, by simp [slotProgramming]⟩) fun _ =>
      silent_pure _
    rintro c command accCode hc
    simp only [slotProgramming, Programming.command.injEq] at hc
    obtain ⟨hc, rfl, -⟩ := hc
    split_ifs at hc
    exact ⟨(Option.some.inj hc).symm, rfl⟩

end Calls

/-- A commit programs the key at most once, in its last step, behind the answers it takes. -/
theorem commit_outcome (m : MainState σ) : Outcome m (commit U M m).2 := by
  refine outcome_bind (Silent.refl m).prompted (silent_errFrame.announce M) fun _ t _ h => ?_
  refine outcome_bind h (silent_errFrame.eprintf _) fun _ t _ h => ?_
  refine outcome_question h (fun a t ha h => ?_) fun a ha => ?_
  · rw [if_pos ha]
    refine outcome_bind h (silent_setExitCode 2) fun _ t _ h => ?_
    rw [Proc.get_bind_run]
    refine outcome_bind h (silent_errFrame.printIf _ _) fun _ u hu h' => ?_
    rcases hd : t.session.args.dryRun with _ | _
    · rw [if_neg Bool.false_ne_true]
      have hd : m.session.args.dryRun = false := h.gates.dryRun.symm.trans hd
      exact outcome_before (writeKey_outcome U hd h') fun _ => silent_errFrame.printIf _ _
    · rw [if_pos rfl]
      exact .inl (h'.grows.trans (silent_errFrame.printf _ u).grows)
  · rw [if_neg (by simp [ha])]
    exact silent_pure _

end Commit

/-! ## The way to the commit -/

section Grows

variable {σ : Type} (U : Usb σ) (M : MainEnv)

theorem silent_openKey (keyIndex : ℤ) : Moves Silent (openKey U keyIndex) :=
  silent_errFrame.openKey (V := U) (silent_onKey _).attempt (fun _ => (silent_onKey _).attempt)
    (fun _ => ⟨rfl, rfl, .refl _, .refl _⟩) (silent_onKey _).attempt keyIndex

theorem silent_printSerial (st : YkStatus) : Moves Silent (printSerial U st) :=
  silent_errFrame.printSerial (V := U) (silent_onKey _).attempt st

theorem grows_prepare (fuel : ℕ) (keyIndex : ℤ) : Moves Grows (prepare U M fuel keyIndex) :=
  grows_runFrame.prepare (V := U) M (grows_silent (silent_openKey U keyIndex))
    (fun _ => Moves.attempt fun _ => .of_acts rfl) (fun _ _ => Moves.attempt fun _ => .of_acts rfl)
    (Moves.attempt fun _ => .of_acts rfl)

end Grows

/-! ## Whole runs -/

section Runs

variable {σ : Type} (U : Usb σ) (M : MainEnv)

/-- `m` has come to its commit in `u`, behind the import from `v`. -/
structure AtCommit (fuel : ℕ) (keyIndex : ℤ) (inf : Option Input) (m v u : MainState σ) :
    Prop where
  prepared : prepare U M fuel keyIndex m = (.ok (inf, .none), v)
  imported : importFile M inf v = (.ok ⟨⟩, u)

theorem AtCommit.grows {U : Usb σ} {M : MainEnv} {fuel : ℕ} {keyIndex : ℤ} {inf : Option Input}
    {m v u : MainState σ} (h : AtCommit U M fuel keyIndex inf m v u) : Grows m u :=
  ((grows_prepare U M fuel keyIndex).of_eq_ok h.prepared).trans
    ((grows_runFrame.importFile M inf).of_eq_ok h.imported)

theorem personalize_outcome (fuel : ℕ) (keyIndex : ℤ) (m : MainState σ) :
    Grows m (personalize U M fuel keyIndex m).2 ∨
      ∃ inf v u answers call, AtCommit U M fuel keyIndex inf m v u ∧
        Programmed u (personalize U M fuel keyIndex m).2 answers call := by
  have hprep := grows_prepare U M fuel keyIndex
  refine Proc.bind_state (P := fun m' => Grows m m' ∨ ∃ inf v u answers call,
    AtCommit U M fuel keyIndex inf m v u ∧ Programmed u m' answers call) ?_ fun _ => .inl (hprep m)
  rintro ⟨inf, _ | fwrite | code⟩ v hv
  · refine Proc.bind_state (P := fun m' => Grows m m' ∨ ∃ inf v u answers call,
      AtCommit U M fuel keyIndex inf m v u ∧ Programmed u m' answers call) (fun _ u hu => ?_)
      fun _ => .inl ((hprep.of_eq_ok hv).trans (grows_runFrame.importFile M inf v))
    have hat : AtCommit U M fuel keyIndex inf m v u := ⟨hv, hu⟩
    have hend : Outcome u ((commit U M >>= fun _ => setExitCode 0 >>= fun _ =>
        pure (none : Option ℕ)) u).2 :=
      outcome_before (commit_outcome U M u) fun _ =>
        silent_bind (silent_setExitCode 0) fun _ => silent_pure _
    rcases hend with hend | ⟨answers, call, hend⟩
    · exact .inl (hat.grows.trans hend)
    · exact .inr ⟨inf, v, u, answers, call, hat, hend⟩
  · have hexport : Moves Grows (importFile M inf >>= fun _ => exportFile M fwrite >>= fun _ =>
        setExitCode 0 >>= fun _ => pure none : Proc (MainState σ) (Option ℕ)) :=
      grows_bind (grows_runFrame.importFile M inf) fun _ => grows_silent <|
        silent_bind (silent_failFrame.exportFile M fwrite) fun _ =>
          silent_bind (silent_setExitCode 0) fun _ => silent_pure _
    exact .inl ((hprep.of_eq_ok hv).trans (hexport v))
  · exact .inl (hprep.of_eq_ok hv)

def Act.isReport : Act → Bool
  | .report _ _ => true
  | _ => false

theorem Act.isProgram_of_isReport (a : Act) (h : a.isReport = true) : a.isProgram = false := by
  cases a <;> simp_all [isReport, isProgram]

theorem logs_leave (error : Bool) : Moves (Logs fun a => a.isReport = true) (leave U error) :=
  (logs_mainFrame fun a => a.isReport = true).leave (V := U) (fun _ _ _ => .single rfl rfl)
    (fun _ => .of_acts rfl) (Moves.attempt fun _ => .of_acts rfl)
    (Moves.attempt fun _ => .of_acts rfl) error

/-- A run that has programmed the key with `call`, behind `answers`. -/
structure ProgramRun (fuel : ℕ) (keyIndex : ℤ) (inf : Option Input) (m v u m' : MainState σ)
    (answers : List (List Char)) (call : Programming) : Prop where
  prescanned : prescan M fuel m.session.args.getopt 0 = some (.goOn keyIndex)
  atCommit : AtCommit U M fuel keyIndex inf m v u
  dryRun : u.session.args.dryRun = false
  consented : Consented u.session.args.autocommit call.prompts answers
  fits : call.Fits u
  acts : ∃ post, m'.acts = u.acts ++ answers.map .answer ++ .program call :: post ∧
    ∀ a ∈ post, a.isReport = true

section

variable {U : Usb σ} {M : MainEnv} {fuel : ℕ} {keyIndex : ℤ} {inf : Option Input}
  {m v u m' : MainState σ} {answers : List (List Char)} {call : Programming}

/-- Behind the commit come the answers, the call and reports. -/
theorem ProgramRun.mem_acts (h : ProgramRun U M fuel keyIndex inf m v u m' answers call)
    {x : Act} (hx : x.isReport = false) :
    x ∈ m'.acts ↔ x ∈ u.acts ∨ x ∈ answers.map .answer ∨ x = .program call := by
  obtain ⟨post, hacts, hpost⟩ := h.acts
  have hnot : x ∉ post := fun hmem => Bool.false_ne_true (hx.symm.trans (hpost x hmem))
  simp only [hacts, List.mem_append, List.mem_cons, hnot, or_false, or_assoc]

/-- All steps are behind a run that has come to its commit. -/
theorem ProgramRun.step_mem (h : ProgramRun U M fuel keyIndex inf m v u m' answers call)
    {step : OptionStep} {ok : Bool} : .step step ok ∈ m'.acts ↔ .step step ok ∈ u.acts := by
  rw [h.mem_acts rfl]
  simp

theorem ProgramRun.call_mem (h : ProgramRun U M fuel keyIndex inf m v u m' answers call)
    (hm : m.acts = []) {call' : Programming} : .program call' ∈ m'.acts ↔ call' = call := by
  have hnone : .program call' ∉ u.acts := fun hx => by cases h.atCommit.grows.none hm _ hx
  rw [h.mem_acts rfl]
  simp [hnone]

end

/-- A run programs the key at most once; before that comes what was logged up to the commit and
the answers, and behind it come reports. -/
theorem ykpersonalize_outcome (fuel : ℕ) (m : MainState σ) :
    Grows m (ykpersonalize U M fuel m).2 ∨ ∃ keyIndex inf v u answers call,
      ProgramRun U M fuel keyIndex inf m v u (ykpersonalize U M fuel m).2 answers call := by
  unfold ykpersonalize
  rw [Proc.get_bind_run]
  rcases hscan : prescan M fuel m.session.args.getopt 0 with _ | ⟨keyIndex⟩ | ⟨code, output⟩
  · exact .inl (.refl m)
  · have hend : ∀ m', Logs (fun a => a.isReport = true) (personalize U M fuel keyIndex m).2 m' →
        Grows m m' ∨ ∃ keyIndex inf v u answers call,
          ProgramRun U M fuel keyIndex inf m v u m' answers call := by
      intro m' hm'
      rcases personalize_outcome U M fuel keyIndex m with h | ⟨inf, v, u, answers, call, hat, h⟩
      · exact .inl (h.trans (hm'.mono Act.isProgram_of_isReport))
      · obtain ⟨post, hpost, hreports⟩ := hm'
        refine .inr ⟨keyIndex, inf, v, u, answers, call, hscan, hat, h.dryRun, h.consented, h.fits,
          post, ?_, hreports⟩
        rw [hpost, h.acts, List.append_assoc _ _ post, List.singleton_append]
    refine hend _ (Proc.bind_state (P := Logs _ _) (fun r t ht => ?_) fun _ => ?_)
    · obtain rfl : t = (personalize U M fuel keyIndex m).2 := by
        rw [← Proc.attempt_state, ht]
      rcases r with _ | _ | code
      · exact logs_leave U true _
      · exact logs_leave U false _
      · exact .refl _
    · exact .of_acts (by rw [Proc.attempt_state])
  · exact .inl (.of_acts rfl)

end Runs

end YkPers
