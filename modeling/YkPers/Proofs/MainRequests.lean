import YkPers.Proofs.ExitCode
import YkPers.Proofs.Requests

/-!
# What a run of the program asks a key

A run of `ykpersonalize` asks for the serial number at most twice, and behind that for nothing but
what its one call that programs the key is for (`ykpersonalize_requests`). Where it returns 0, that
request has been made.
-/

namespace YkPers

open Proc (Alone Moves attempt)
open scoped List

variable {σ α β : Type}

/-! ## The calls -/

section Calls

variable (H : Host σ)

/-- The request that a call is for. A record for a slot that there is not is refused. -/
def callRequests : Programming → List (List UInt8)
  | .command cfg cmd accCode =>
    [wireFrame H.yubikeyCrc16 cmd (commandBlock H (cfg.map (updateCrc H)) accCode)]
  | .ndef record confnum =>
    if confnum = 1 then [wireFrame H.yubikeyCrc16 slotNdef record.bytes]
    else if confnum = 2 then [wireFrame H.yubikeyCrc16 slotNdef2 record.bytes]
    else []
  | .deviceConfig d => [wireFrame H.yubikeyCrc16 slotDeviceConfig (d.bytes H.endian)]
  | .scanMap scanCodes =>
    [wireFrame H.yubikeyCrc16 slotScanMap (scanCodes.take scanMap.length)]
  | .deviceInfo info len =>
    [wireFrame H.yubikeyCrc16 slotYk4SetDeviceInfo (info.take len.toNat)]

theorem commandBlock_length (cfg : Option YkConfig) (accCode : Option (Vector UInt8 accCodeSize)) :
    (commandBlock H cfg accCode).length = ykConfigSize + accCodeSize := by
  unfold commandBlock
  cases cfg with
  | none =>
    cases accCode with
    | none => exact List.length_replicate
    | some a => exact (Buffer.length_store (by simp)).trans List.length_replicate
  | some c =>
    have hcfg : (Buffer.store (List.replicate (ykConfigSize + accCodeSize) 0) 0
        (c.bytes H.endian)).length = ykConfigSize + accCodeSize :=
      (Buffer.length_store (by simp [YkConfig.length_bytes])).trans List.length_replicate
    cases accCode with
    | none => exact hcfg
    | some a => exact (Buffer.length_store (by simp [hcfg])).trans hcfg

theorem callRequests_asks (call : Programming) :
    Asks id (call.run H) (callRequests H call) := by
  cases call with
  | command cfg cmd accCode =>
    have hlen := commandBlock_length H (cfg.map (updateCrc H)) accCode
    have hasks := ykWrite_asks H cmd (commandBlock H (cfg.map (updateCrc H)) accCode)
      (n := (commandBlock H (cfg.map (updateCrc H)) accCode).length) (by rw [hlen]; decide)
    rw [List.take_length] at hasks
    exact (hasks.then_idle fun _ => idle_pure _).then_idle fun _ => idle_pure _
  | ndef record confnum =>
    have hasks : ∀ slot, Asks id (ykWrite H slot record.bytes ykNdefSize)
        [wireFrame H.yubikeyCrc16 slot record.bytes] := fun slot => by
      have h := ykWrite_asks H slot record.bytes (n := ykNdefSize) (by decide)
      rwa [List.take_of_length_le (Nat.le_of_eq record.length_bytes)] at h
    show Asks id (ykWriteNdef2 H record confnum)
      (if confnum = 1 then _ else if confnum = 2 then _ else _)
    unfold ykWriteNdef2
    split_ifs
    · exact hasks _
    · exact hasks _
    · exact .of_idle (idle_failWith _)
  | deviceConfig d =>
    have h := ykWrite_asks H slotDeviceConfig (d.bytes H.endian) (n := ykDeviceConfigSize)
      (by decide)
    rwa [List.take_of_length_le (Nat.le_of_eq (d.length_bytes _))] at h
  | scanMap scanCodes => exact ykWrite_asks H _ _ (by decide)
  | deviceInfo info len => exact ykWrite_asks H _ _ len.toNat_lt

end Calls

/-! ## Steps that ask nothing -/

section Steps

def MainState.world (m : MainState σ) : World σ := m.session.world

/-- Nothing has happened that programs the key or asks it for something. -/
structure Passive (m m' : MainState σ) : Prop where
  grows : Grows m m'
  idle : Idle MainState.world m m'

theorem asks_onKey {x : Yk σ α} {gs : List (List UInt8)} (hx : Asks id x gs) :
    Asks MainState.world (onSession (onKey x)) gs where
  any m := hx.any m.session.world
  ok m a m' h := by
    obtain ⟨h1, rfl⟩ := Prod.mk.inj h
    exact hx.ok _ a _ (Proc.run_eq h1)

theorem SameMain.passive {m m' : MainState σ} (h : SameMain m m') : Passive m m' :=
  ⟨.of_acts h.acts, .of_trace (congrArg World.trace h.world)⟩

theorem passive_runFrame : RunFrame (Alone (Moves (Passive (σ := σ)))) where
  toMainFrame := .of_moves (fun _ _ _ h k => ⟨h.grows.trans k.grows, h.idle.trans k.idle⟩)
    fun _ _ h => h.passive
  errOne _ := ⟨.of_acts rfl, .of_trace rfl⟩
  step _ _ _ := ⟨.single rfl rfl, .of_trace rfl⟩
  answer _ _ := ⟨.single rfl rfl, .of_trace rfl⟩
  config _ _ := ⟨.of_acts rfl, .of_trace rfl⟩
  attemptConfig _ := Moves.attempt fun _ => ⟨.of_acts rfl, .of_trace rfl⟩
  attemptSame _ := Moves.attempt fun _ => ⟨.of_acts rfl, .of_trace rfl⟩
  accessCode _ _ := ⟨.of_acts rfl, .of_trace rfl⟩
  fail _ := ⟨.of_acts rfl, .of_trace rfl⟩
  stdin _ _ := ⟨.of_acts rfl, .of_trace rfl⟩

theorem passive_bind {x : Proc (MainState σ) α} {f : α → Proc (MainState σ) β}
    (hx : Moves Passive x) (hf : ∀ a, Moves Passive (f a)) : Moves Passive (x >>= f) :=
  .bind (fun _ _ _ h k => ⟨h.grows.trans k.grows, h.idle.trans k.idle⟩) hx hf

theorem passive_idle {x : Proc (MainState σ) α} (hx : Moves Passive x) :
    Moves (Idle MainState.world) x := fun m => (hx m).idle

theorem passive_onKey {x : Yk σ α} (hx : Moves (Idle id) x) :
    Moves Passive (onSession (onKey x)) := fun m => ⟨.of_acts rfl, hx m.session.world⟩

theorem passive_setExitCode (code : ℕ) :
    Moves Passive (setExitCode code : Proc (MainState σ) Unit) := fun _ =>
  ⟨.of_acts rfl, .of_trace rfl⟩

variable (U : Usb σ) (M : MainEnv)

theorem passive_parseOptions (fuel : ℕ) (keyIndex : ℤ) :
    Moves Passive (parseOptions U M fuel keyIndex) :=
  passive_bind (passive_runFrame.openKey (V := U) (passive_onKey (idle_busCall _)).attempt
      (fun _ => (passive_onKey (idle_ykOpenKey U _)).attempt)
      (fun _ => ⟨.of_acts rfl, .of_trace rfl⟩) (passive_onKey (idle_ykGetStatus U.toHost)).attempt
      keyIndex) fun st =>
    passive_bind (passive_runFrame.parseArguments M st fuel
      (Moves.attempt fun _ => ⟨.of_acts rfl, .of_trace rfl⟩)) fun _ => passive_runFrame.pure st

theorem passive_leave (error : Bool) : Moves Passive (leave U error) :=
  passive_runFrame.leave (V := U) (fun _ _ _ => ⟨.single rfl rfl, .of_trace rfl⟩)
    (passive_setExitCode 2) (passive_onKey (idle_busCall _)).attempt
    (passive_onKey (idle_busCall _)).attempt error

end Steps

/-! ## Up to the commit -/

section Prepare

section

variable {S : Type} {world : S → World σ} {x : Proc S α} {f : α → Proc S β}
  {g h : List (List UInt8)}

/-- However a sequence ends, it has made at most the requests of its parts. -/
theorem mayAsk_bind (hx : Moves (HasAsked world (· <+ g)) x)
    (hf : ∀ a, Moves (HasAsked world (· <+ h)) (f a)) :
    Moves (HasAsked world (· <+ g ++ h)) (x >>= f) :=
  .seq (P := HasAsked world (· <+ g ++ h))
    (fun _ _ k => k.mono fun _ hg => hg.trans (List.sublist_append_left g h))
    (fun _ _ _ k k' => k.trans k' fun _ _ hg hh => hg.append hh) hx hf

theorem mayAsk_idle (hx : Moves (Idle world) x) (g : List (List UInt8)) :
    Moves (HasAsked world (· <+ g)) x := fun s =>
  (hx s).mono fun _ hg => by
    rw [hg]
    exact List.nil_sublist g

theorem mayAsk_idle_bind (hx : Moves (Idle world) x)
    (hf : ∀ a, Moves (HasAsked world (· <+ h)) (f a)) :
    Moves (HasAsked world (· <+ h)) (x >>= f) := mayAsk_bind (mayAsk_idle hx []) hf

end

variable (E : ArgsEnv) (H : Host σ) (U : Usb σ) (M : MainEnv)

theorem mayAsk_setSerialId : Moves (HasAsked Session.world (· <+ [serialRequest H.yubikeyCrc16]))
    (setSerialId E H : Proc (Session σ) Unit) := by
  have htext : ∀ msg, Moves (Idle Session.world) (failWithText msg : Proc (Session σ) Unit) :=
    fun _ => idle_bind (idle_of_trace fun _ => rfl) fun _ => .fail Idle.refl
  have hserial : Asks Session.world (YkPers.onKey (ykGetSerial H 0 0))
      [serialRequest H.yubikeyCrc16] := (ykGetSerial_asks H 0 0).zoom fun _ _ => rfl
  refine .ite (mayAsk_idle (htext _) _) fun s => (hserial.attempt_then ?_ s).1
  rintro (_ | serial)
  · exact htext _
  dsimp only
  cases formatOathId 12 yubicoOathVendorIdHex yubicoHotpEventTokenType serial with
  | none => exact htext _
  | some oathId =>
    refine idle_bind (idle_of_trace fun _ => by rw [Proc.attempt_state]; rfl) ?_
    rintro (_ | _)
    · exact htext _
    · exact idle_pure _

theorem mayAsk_setOathId (opt : List Char) :
    Moves (HasAsked Session.world (· <+ [serialRequest H.yubikeyCrc16])) (setOathId E H opt) := by
  have htext : ∀ msg, Moves (Idle Session.world) (failWithText msg : Proc (Session σ) Unit) :=
    fun _ => idle_bind (idle_of_trace fun _ => rfl) fun _ => .fail Idle.refl
  have hargs : ∀ {α : Type} (x : Proc ArgsState α),
      Moves (Idle Session.world) (onArgs x : Proc (Session σ) α) :=
    fun _ => idle_of_trace fun _ => rfl
  refine .get_bind fun s => .ite (mayAsk_idle_bind (hargs _) fun _ =>
    mayAsk_idle_bind (hargs _) fun _ => .ite (mayAsk_idle ?_ _) (mayAsk_setSerialId E H))
    (mayAsk_idle (htext _) _)
  refine idle_bind (hargs _).attempt ?_
  rintro (_ | _)
  · exact htext _
  · exact idle_pure _

theorem mayAsk_applyOathId (st : YkStatus) :
    Moves (HasAsked MainState.world (· <+ [serialRequest U.yubikeyCrc16]))
      (applyOathId U M st) := by
  refine .get_bind fun m => .ite ?_ (mayAsk_idle (idle_pure _) _)
  have hset : Moves (HasAsked MainState.world (· <+ [serialRequest U.yubikeyCrc16]))
      (onSession (setOathId (M.argsEnv st) U.toHost m.session.args.oathid)) :=
    fun m' => mayAsk_setOathId _ _ _ m'.session
  exact mayAsk_bind (h := []) (mayAsk_bind (h := []) hset.attempt fun _ =>
    mayAsk_idle (idle_bind (idle_of_trace fun _ => rfl) fun _ => idle_pure _) _) fun _ =>
      mayAsk_idle (idle_pure _) _

theorem mayAsk_printSerial (st : YkStatus) :
    Moves (HasAsked MainState.world (· <+ [serialRequest U.yubikeyCrc16])) (printSerial U st) := by
  have hserial := asks_onKey (ykGetSerial_asks U.toHost 0 0)
  refine .get_bind fun m => .ite (fun m' => (hserial.attempt_then ?_ m').1)
    (mayAsk_idle (idle_pure _) _)
  rintro (_ | serial)
  · exact passive_idle (passive_runFrame.printf _)
  · exact passive_idle (passive_runFrame.printf _)

/-- Up to the commit, the key has been asked for its serial number at most twice. -/
theorem mayAsk_prepare (fuel : ℕ) (keyIndex : ℤ) :
    Moves (HasAsked MainState.world
      (· <+ [serialRequest U.yubikeyCrc16, serialRequest U.yubikeyCrc16]))
      (prepare U M fuel keyIndex) := by
  have hbehind : Moves Passive (do
      printf "\n"
      let inf ← openInput M
      let outf ← openOutput M
      pure (inf, outf) : Proc (MainState σ) (Option Input × Output)) :=
    passive_bind (passive_runFrame.printf _) fun _ => passive_bind (passive_runFrame.openInput M)
      fun _ => passive_bind (passive_runFrame.openOutput M) fun _ => passive_runFrame.pure _
  refine mayAsk_idle_bind (passive_idle (passive_parseOptions U M fuel keyIndex)) fun st => ?_
  refine mayAsk_bind (g := [_]) (h := [_]) (mayAsk_applyOathId U M st) fun _ =>
    mayAsk_idle_bind (passive_idle (passive_runFrame.applyAccessCode M)) fun _ =>
      mayAsk_idle_bind (passive_idle (passive_runFrame.applyNewAccessCode M)) fun _ => ?_
  exact mayAsk_bind (h := []) (mayAsk_printSerial U st) fun _ =>
    mayAsk_idle (passive_idle hbehind) _

end Prepare

/-! ## The commit -/

section Commit

variable (U : Usb σ) (M : MainEnv) {a b c m m' : MainState σ}

/-- What is asked for by an entry of the log. -/
def Act.requests (H : Host σ) : Act → List (List UInt8)
  | .program call => callRequests H call
  | _ => []

/-- Since `m`, `P` holds of the requests and of those that the calls in the log are for. -/
def Performed (P : List (List UInt8) → List (List UInt8) → Prop) (m m' : MainState σ) : Prop :=
  ∃ as, m'.acts = m.acts ++ as ∧
    HasAsked MainState.world (P · (as.flatMap (Act.requests U.toHost))) m m'

/-- However `x` ends, it has begun no more than the calls that it logs, and where it returns, they
are done. -/
structure Performs (x : Proc (MainState σ) α) : Prop where
  any : ∀ m, Performed U (· <+ ·) m (x m).2
  ok : ∀ m a m', x m = (.ok a, m') → Performed U (· = ·) m m'

theorem requests_of_grows {as : List Act} (h : ∀ a ∈ as, a.isProgram = false) :
    as.flatMap (Act.requests U.toHost) = [] := by
  refine List.flatMap_eq_nil_iff.2 fun a ha => ?_
  cases a with
  | program call => cases h _ ha
  | _ => rfl

variable {U} {P Q R : List (List UInt8) → List (List UInt8) → Prop}

theorem Performed.trans (h : Performed U P a b) (k : Performed U Q b c)
    (hR : ∀ x y z w, P x y → Q z w → R (x ++ z) (y ++ w)) : Performed U R a c := by
  obtain ⟨as, ha, h⟩ := h
  obtain ⟨bs, hb, k⟩ := k
  refine ⟨as ++ bs, by rw [hb, ha, List.append_assoc], ?_⟩
  rw [List.flatMap_append]
  exact h.trans k fun _ _ hg hg' => hR _ _ _ _ hg hg'

theorem Performed.mono (h : Performed U P a b) (hQ : ∀ x y, P x y → Q x y) : Performed U Q a b := by
  obtain ⟨as, ha, h⟩ := h
  exact ⟨as, ha, h.mono fun _ => hQ _ _⟩

theorem Performed.then_passive (h : Performed U P a b) (k : Passive b c) : Performed U P a c := by
  obtain ⟨as, ha, h⟩ := h
  obtain ⟨bs, hb, hno⟩ := k.grows
  refine ⟨as ++ bs, by rw [hb, ha, List.append_assoc], ?_⟩
  rw [List.flatMap_append, requests_of_grows U hno, List.append_nil]
  exact h.trans (M := (· = [])) k.idle fun _ _ hg hg' => by rwa [hg', List.append_nil]

theorem Performed.refl (m : MainState σ) : Performed U (· = ·) m m :=
  ⟨[], (List.append_nil _).symm, Idle.refl m⟩

theorem Passive.performed (h : Passive m m') : Performed U (· = ·) m m' :=
  (Performed.refl m).then_passive h

theorem Performs.of_passive {x : Proc (MainState σ) α} (h : Moves Passive x) : Performs U x where
  any m := (h m).performed.mono fun _ _ hg => by rw [hg]
  ok _ _ _ hx := (h.of_eq_ok hx).performed

theorem Performs.bind {x : Proc (MainState σ) α} {f : α → Proc (MainState σ) β}
    (hx : Performs U x) (hf : ∀ a, Performs U (f a)) : Performs U (x >>= f) where
  any m := by
    refine Proc.bind_state (P := Performed U (· <+ ·) m) (fun a t ht => ?_) fun _ => hx.any m
    exact (hx.ok m a t ht).trans ((hf a).any t) fun _ _ _ _ hg hg' => by
      rw [hg]
      exact hg'.append_left _
  ok m b m' h := by
    obtain ⟨a, t, ht, h⟩ := Proc.bind_eq_ok.1 h
    exact (hx.ok m a t ht).trans ((hf a).ok t b m' h) fun _ _ _ _ hg hg' => by rw [hg, hg']

theorem Performs.get_bind {f : MainState σ → Proc (MainState σ) α} (hf : ∀ m, Performs U (f m)) :
    Performs U (Proc.get >>= f) := ⟨fun m => (hf m).any m, fun m => (hf m).ok m⟩

variable (U)

theorem performs_fileFrame : FileFrame (Alone (Performs (σ := σ) U)) where
  pure a := .of_passive (passive_runFrame.pure a)
  fault := .of_passive passive_runFrame.fault
  fail := .of_passive passive_runFrame.fail
  bind := .bind
  get_bind hf := .get_bind fun m => hf m m (.refl m)
  printf text := .of_passive (passive_runFrame.printf text)
  stderr f := .of_passive (passive_runFrame.stderr f)
  stdin f := .of_passive (passive_runFrame.stdin f)
  data f := .of_passive (passive_runFrame.data f)
  looks hx := .of_passive (passive_runFrame.looks hx)
  config x := .of_passive (passive_runFrame.config x)
  attemptConfig x := .of_passive (passive_runFrame.attemptConfig x)
  attemptSame hx := .of_passive (passive_runFrame.attemptSame hx)
  step step ok := .of_passive (passive_runFrame.toFileFrame.step step ok)
  answer line := .of_passive (passive_runFrame.answer line)

theorem performs_program (call : Programming) (failure : String) :
    Performs U (program U call failure) := by
  have hcall := asks_onKey (callRequests_asks U.toHost call)
  have hasks : Asks MainState.world (program U call failure) (callRequests U.toHost call) := by
    refine .idle_then (idle_of_trace fun _ => rfl) fun _ =>
      hcall.attempt_bind ?_ fun t a m' h => ?_
    · rintro (_ | _)
      · exact passive_idle <| .get_bind fun _ =>
          passive_bind (passive_runFrame.printIf _ _) fun _ => passive_runFrame.fail
      · exact idle_pure _
    · obtain ⟨_, _, -, h⟩ := Proc.bind_eq_ok.1 h
      obtain ⟨_, _, -, h⟩ := Proc.bind_eq_ok.1 h
      cases h
  have hflat : [Act.program call].flatMap (Act.requests U.toHost) = callRequests U.toHost call :=
    List.append_nil _
  refine ⟨fun m => ⟨_, program_acts U call failure m, ?_⟩,
    fun m a m' h => ⟨[.program call], ?_, ?_⟩⟩
  · rw [hflat]
    exact hasks.any m
  · rw [← program_acts U call failure, h]
  · rw [hflat]
    exact hasks.ok m a m' h

theorem performs_withFiles (files : Option Input × Output) : Performs U (withFiles U M files) :=
  (performs_fileFrame U).withFiles (V := U) M (performs_program U)
    (fun code => .of_passive (passive_setExitCode code)) files

/-- Where a call may not be done, the exit code tells. -/
def Told (m m' : MainState σ) : Prop := Performed U (· = ·) m m' ∨ m'.exitCode ≠ 0

theorem told_before {x : Proc (MainState σ) α} {f : α → Proc (MainState σ) β}
    (hx : Moves Passive x) (hf : ∀ a, Moves (Told U) (f a)) : Moves (Told U) (x >>= f) := fun m =>
  Proc.bind_state (P := Told U m)
    (fun a t ht => (hf a t).imp_left fun h => (hx.of_eq_ok ht).performed.trans h
      fun _ _ _ _ hg hg' => by rw [hg, hg'])
    fun _ => .inl (hx m).performed

theorem told_then {x : Proc (MainState σ) α} {f : α → Proc (MainState σ) β} (hx : Performs U x)
    (ht : Moves (Told U) x) (hf : ∀ a, Moves Passive (f a)) : Moves (Told U) (x >>= f) := fun m =>
  Proc.bind_state (P := Told U m)
    (fun a t h => .inl ((hx.ok m a t h).then_passive (hf a t))) fun _ => ht m

theorem told_commit : Moves (Told U) (commit U M) := by
  refine told_before U (passive_runFrame.announce M) fun _ =>
    told_before U (passive_runFrame.eprintf _) fun _ =>
      told_before U passive_runFrame.readAnswer fun answer => .ite (fun m => ?_)
        fun m => .inl (passive_runFrame.pure _ m).performed
  -- behind the answer the exit code is 2
  exact .inr ((sameCode_confirmed U { m with session.args.exitCode := 2 }).trans_ne
    (Nat.succ_ne_zero 1))

theorem told_withFiles (files : Option Input × Output) :
    Moves (Told U) (withFiles U M files) := by
  have hnone : ∀ {x : Proc (MainState σ) (Option ℕ)}, Moves Passive x → Moves (Told U) x :=
    fun h m => .inl (h m).performed
  have hend : Moves Passive (do
      setExitCode 0
      pure none : Proc (MainState σ) (Option ℕ)) :=
    passive_bind (passive_setExitCode 0) fun _ => passive_runFrame.pure _
  obtain ⟨inf, _ | fwrite | code⟩ := files
  · refine told_before U (passive_runFrame.importFile M inf) fun _ =>
      told_then U ?_ (told_commit U M) fun _ => hend
    exact (performs_fileFrame U).commit (V := U) M (performs_program U) fun code =>
      .of_passive (passive_setExitCode code)
  · exact hnone <| passive_bind (passive_runFrame.importFile M inf) fun _ =>
      passive_bind (passive_runFrame.exportFile M fwrite) fun _ => hend
  · exact hnone (passive_runFrame.pure _)

end Commit

/-! ## The run -/

section Run

variable (U : Usb σ) (M : MainEnv) {m m' t : MainState σ}

/-- A request for the serial number at most twice, and behind it what `P` says of the calls. -/
def AskedBehind (P : List (List UInt8) → List (List UInt8) → Prop) (gs calls : List (List UInt8)) :
    Prop :=
  ∃ queries asked, gs = queries ++ asked ∧
    queries <+ [serialRequest U.yubikeyCrc16, serialRequest U.yubikeyCrc16] ∧ P asked calls

/-- Up to the commit nothing is called. -/
theorem prepare_queries (fuel : ℕ) (keyIndex : ℤ) (m : MainState σ) :
    Performed U (fun gs calls => calls = [] ∧
      gs <+ [serialRequest U.yubikeyCrc16, serialRequest U.yubikeyCrc16]) m
        (prepare U M fuel keyIndex m).2 := by
  obtain ⟨as, has, hno⟩ := grows_prepare U M fuel keyIndex m
  exact ⟨as, has, (mayAsk_prepare U M fuel keyIndex m).mono fun _ hg =>
    ⟨requests_of_grows U hno, hg⟩⟩

theorem Performed.behind {P : List (List UInt8) → List (List UInt8) → Prop} {a b c : MainState σ}
    (h : Performed U (fun gs calls => calls = [] ∧
      gs <+ [serialRequest U.yubikeyCrc16, serialRequest U.yubikeyCrc16]) a b)
    (k : Performed U P b c) : Performed U (AskedBehind U P) a c :=
  h.trans k fun _ _ _ _ hg hg' => ⟨_, _, rfl, hg.2, by rwa [hg.1]⟩

/-- A part that returns has done what it began, and behind one that fails the exit code tells. -/
theorem personalize_requests (fuel : ℕ) (keyIndex : ℤ) (m : MainState σ) :
    Performed U (AskedBehind U (· <+ ·)) m (personalize U M fuel keyIndex m).2 ∧
      (Performed U (AskedBehind U (· = ·)) m (personalize U M fuel keyIndex m).2 ∨
        (personalize U M fuel keyIndex m).2.exitCode ≠ 0) ∧
      ∀ r, (personalize U M fuel keyIndex m).1 = .ok r →
        Performed U (AskedBehind U (· = ·)) m (personalize U M fuel keyIndex m).2 := by
  have hprep := prepare_queries U M fuel keyIndex m
  have hstop : Performed U (AskedBehind U (· = ·)) m (prepare U M fuel keyIndex m).2 :=
    hprep.behind U (.refl _)
  have hsome : ∀ {m'}, Performed U (AskedBehind U (· = ·)) m m' →
      Performed U (AskedBehind U (· <+ ·)) m m' := fun h => h.mono fun _ _ ⟨q, a, hg, hq, ha⟩ =>
    ⟨q, a, hg, hq, by rw [ha]⟩
  have hready : ∀ {files t}, prepare U M fuel keyIndex m = (.ok files, t) →
      Performed U (fun gs calls => calls = [] ∧
        gs <+ [serialRequest U.yubikeyCrc16, serialRequest U.yubikeyCrc16]) m t := fun h => by
    rwa [h] at hprep
  refine ⟨Proc.bind_state (P := Performed U (AskedBehind U (· <+ ·)) m) (fun files t ht => ?_)
    fun _ => hsome hstop, Proc.bind_state (P := fun m' => Performed U (AskedBehind U (· = ·)) m m' ∨
      m'.exitCode ≠ 0) (fun files t ht => ?_) fun _ => .inl hstop, fun r hr => ?_⟩
  · exact (hready ht).behind U ((performs_withFiles U M files).any t)
  · exact (told_withFiles U M files t).imp_left ((hready ht).behind U)
  · obtain ⟨files, t, ht, h⟩ := Proc.bind_eq_ok.1 (Proc.run_eq hr)
    exact (hready ht).behind U ((performs_withFiles U M files).ok t r _ h)

theorem main_requests (fuel : ℕ) (m : MainState σ) :
    Performed U (AskedBehind U (· <+ ·)) m (ykpersonalize U M fuel m).2 ∧
      ((ykpersonalize U M fuel m).1 = .ok 0 →
        Performed U (AskedBehind U (· = ·)) m (ykpersonalize U M fuel m).2) := by
  have hnone : ∀ {P : List (List UInt8) → List (List UInt8) → Prop}, P [] [] → ∀ {m'},
      m'.acts = m.acts → m'.world.trace = m.world.trace → Performed U (AskedBehind U P) m m' :=
    fun hP _ ha ht => ⟨[], by rw [ha, List.append_nil],
      .of_trace ⟨[], [], rfl, List.nil_sublist _, hP⟩ ht⟩
  unfold ykpersonalize
  rw [Proc.get_bind_run]
  rcases prescan M fuel m.session.args.getopt 0 with _ | ⟨keyIndex⟩ | ⟨code, output⟩
  · exact ⟨hnone (List.Sublist.refl _) rfl rfl, fun _ => hnone rfl rfl rfl⟩
  · obtain ⟨hany, htold, hok⟩ := personalize_requests U M fuel keyIndex m
    have hstate : ∀ {r t}, attempt (personalize U M fuel keyIndex) m = (.ok r, t) →
        t = (personalize U M fuel keyIndex m).2 := fun h => by
      rw [← Proc.attempt_state, h]
    refine ⟨Proc.bind_state (P := Performed U (AskedBehind U (· <+ ·)) m) (fun r t ht => ?_)
      fun _ => by rwa [Proc.attempt_state], fun hzero => ?_⟩
    · obtain rfl := hstate ht
      rcases r with _ | _ | code
      · exact hany.then_passive (passive_leave U true _)
      · exact hany.then_passive (passive_leave U false _)
      · exact hany
    · obtain ⟨r, t, ht, h⟩ := Proc.bind_eq_ok.1 (Proc.run_eq hzero)
      obtain rfl := hstate ht
      rcases r with _ | _ | code
      · have hcode := (leave_exitCode U true h).1 rfl
        exact (htold.resolve_right (absurd hcode.1)).then_passive
          ((passive_leave U true).of_eq_ok h)
      · exact (hok none (congrArg Prod.fst (Proc.of_attempt_ok ht))).then_passive
          ((passive_leave U false).of_eq_ok h)
      · obtain ⟨-, hm⟩ := Prod.mk.inj h
        exact hm ▸ hok _ (congrArg Prod.fst (Proc.of_attempt_ok ht))
  · exact ⟨hnone (List.Sublist.refl _) rfl rfl, fun _ => hnone rfl rfl rfl⟩

theorem length_callRequests_le (H : Host σ) (call : Programming) :
    (callRequests H call).length ≤ 1 := by
  cases call with
  | ndef record confnum =>
    rw [callRequests]
    split_ifs <;> simp
  | _ => exact Nat.le_refl 1

/-- There is one call at most. -/
theorem length_calls_le (fuel : ℕ) {m : MainState σ} (hm : m.acts = []) :
    ((ykpersonalize U M fuel m).2.acts.flatMap (Act.requests U.toHost)).length ≤ 1 := by
  rcases ykpersonalize_outcome U M fuel m with hgrows | ⟨keyIndex, inf, v, u, answers, call, h⟩
  · rw [requests_of_grows U (hgrows.none hm)]
    exact Nat.zero_le 1
  · obtain ⟨post, hacts, hpost⟩ := h.acts
    have hanswers : (answers.map Act.answer).flatMap (Act.requests U.toHost) = [] :=
      requests_of_grows U fun a ha => by
        obtain ⟨line, -, rfl⟩ := List.mem_map.1 ha
        rfl
    rw [hacts, List.flatMap_append, List.flatMap_append, List.flatMap_cons,
      requests_of_grows U (h.atCommit.grows.none hm), hanswers,
      requests_of_grows U fun a ha => a.isProgram_of_isReport (hpost a ha),
      List.append_nil, List.nil_append, List.append_nil]
    exact length_callRequests_le U.toHost call

/-- Whatever the key does, it is asked for its serial number at most twice, and behind that for
nothing but what the one call that programs it is for, and where the program returns 0, for that. -/
theorem ykpersonalize_requests (fuel : ℕ) (argv : List (List Char)) (stdin : List Char)
    (scanCodes deviceInfo accessCode : List UInt8) (data : List Char) (dev : σ) :
    let run := ykpersonalize U M fuel
      (.start argv stdin scanCodes deviceInfo accessCode data dev)
    let calls := run.2.acts.flatMap (Act.requests U.toHost)
    calls.length ≤ 1 ∧ ∀ buf rs, Arrives (outgoing run.2.session.world.trace) rs →
      ∃ queries asked, requests buf rs = queries ++ asked ∧
        queries <+ [serialRequest U.yubikeyCrc16, serialRequest U.yubikeyCrc16] ∧
        asked <+ calls ∧ (run.1 = .ok 0 → asked = calls) := by
  intro run calls
  refine ⟨length_calls_le U M fuel rfl, fun buf rs hrs => ?_⟩
  have hlog : ∀ {P : List (List UInt8) → List (List UInt8) → Prop},
      Performed U P (.start argv stdin scanCodes deviceInfo accessCode data dev) run.2 →
        P (requests buf rs) calls := by
    rintro P ⟨as, has, t, ht, h⟩
    obtain rfl : run.2.acts = as := has
    obtain rfl : run.2.session.world.trace = t := ht
    exact h buf rs hrs
  obtain ⟨hany, hzero⟩ := main_requests U M fuel
    (.start argv stdin scanCodes deviceInfo accessCode data dev)
  by_cases h0 : run.1 = .ok 0
  · obtain ⟨queries, asked, hgs, hq, rfl⟩ := hlog (hzero h0)
    exact ⟨queries, _, hgs, hq, List.Sublist.refl _, fun _ => rfl⟩
  · obtain ⟨queries, asked, hgs, hq, ha⟩ := hlog hany
    exact ⟨queries, asked, hgs, hq, ha, fun h => absurd h h0⟩

end Run

end YkPers
